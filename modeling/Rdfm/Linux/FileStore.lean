import Rdfm.Lib.BoundedQueue
import Rdfm.Lib.Decimal
import Rdfm.Lib.DeviceFile
import Rdfm.Lib.IndexedMap
import Mathlib.Data.Char
import Mathlib.Data.List.Lex
import Mathlib.Data.List.Sort

/-!
# The file-backed action queue

The Linux client's `FileStore`: byte blobs in numbered files of one directory, with a cache of them
in memory, a read and a write index, and one counting semaphore each for free slots and for items.
What runs under `itemsLock` is one function here; `StoreSystem.step` interleaves the callers between
a semaphore and the lock. File operations succeed. An index is an unbounded integer.
-/

namespace Rdfm.Linux

open Rdfm.Lib

/-! ## Semaphores -/

/-- A weighted semaphore used with weight one. Callers only wait while `cur = size`, so waiting
callers never make `TryAcquire` fail on their own. -/
structure Semaphore where
  size : Nat
  cur : Nat
deriving DecidableEq, Repr

namespace Semaphore

def newWeighted (size : Nat) : Semaphore := ⟨size, 0⟩

/-- `TryAcquire(1)`; `none` is the answer false. -/
def tryAcquire (s : Semaphore) : Option Semaphore :=
  if s.cur < s.size then some { s with cur := s.cur + 1 } else none

/-- `Release(1)`; it panics when nothing is held. -/
def release (s : Semaphore) : Option Semaphore :=
  if 0 < s.cur then some { s with cur := s.cur - 1 } else none

/-- `TryAcquire(1)` in a loop, with the answers ignored. -/
def tryAcquireN : Nat → Semaphore → Semaphore
  | 0, s => s
  | n + 1, s => tryAcquireN n (s.tryAcquire.getD s)

/-- `Release(1)` in a loop. -/
def releaseN : Nat → Semaphore → Option Semaphore
  | 0, s => some s
  | n + 1, s => s.release.bind (releaseN n)

end Semaphore

/-! ## Files -/

abbrev FileName := List Char

/-- The directory `items`. -/
abbrev Dir := Entries FileName Bytes

/-- `strconv.Itoa`. -/
def pathFromIdx : Int → FileName
  | .ofNat n => itoa n
  | .negSucc n => '-' :: itoa (n + 1)

/-- `strconv.Atoi`. -/
def idxFromPath (name : FileName) : Option Int := parseSigned 10 name

def writeFile (idx : Int) (item : Bytes) (dir : Dir) : Dir := dir.set (pathFromIdx idx) item

def readFile (idx : Int) (dir : Dir) : Option Bytes := dir.get? (pathFromIdx idx)

def removeFile (idx : Int) (dir : Dir) : Dir := dir.erase (pathFromIdx idx)

/-- `ioutil.ReadDir`: the entries sorted by name. -/
def readDir (dir : Dir) : List (FileName × Bytes) := dir.insertionSort fun a b => a.1 ≤ b.1

/-! ## The store -/

inductive StoreError where
  | full
  | empty
  | cannotQueueNil
deriving DecidableEq, Repr

structure FileStore where
  itemsByIdx : Entries Int Bytes
  readIdx : Int
  writeIdx : Int
  capacity : Nat
  availableSlots : Semaphore
  availableItems : Semaphore
deriving DecidableEq, Repr

namespace FileStore

/-- The loop of `Reload` over the files; a name that is no number is skipped. -/
def loadItems (dir : Dir) : List (FileName × Bytes) → Entries Int Bytes → Option (Entries Int Bytes)
  | [], items => some items
  | (name, _) :: files, items =>
    match idxFromPath name with
    | none => loadItems dir files items
    | some idx => (readFile idx dir).bind fun item => loadItems dir files (items.set idx item)

/-- The smallest index, `-1` standing for none so far. -/
def minIdx : List Int → Int → Int
  | [], m => m
  | idx :: rest, m => minIdx rest (if m = -1 ∨ idx < m then idx else m)

def maxIdx : List Int → Int → Int
  | [], m => m
  | idx :: rest, m => maxIdx rest (if m = -1 ∨ idx > m then idx else m)

/-- `Reload`, with the capacity the store was made with. -/
def reload (capacity : Nat) (dir : Dir) : Option FileStore := do
  let items ← loadItems dir (readDir dir) []
  let capacity := if capacity < items.length then items.length else capacity
  let lo := minIdx (items.map Prod.fst) (-1)
  let hi := maxIdx (items.map Prod.fst) (-1)
  -- acquired up to the capacity, then as many released as there are items
  let availableItems ← ((Semaphore.newWeighted capacity).tryAcquireN capacity).releaseN items.length
  some
    { itemsByIdx := items
      readIdx := if lo = -1 then 0 else lo
      writeIdx := if lo = -1 then 0 else hi + 1
      capacity
      availableSlots := (Semaphore.newWeighted capacity).tryAcquireN items.length
      availableItems }

/-- The scan of `getFrontItemIndex`, for a number of rounds. -/
def scanFront (items : Entries Int Bytes) : Nat → Int → Option Int
  | 0, _ => none
  | n + 1, curReadIdx =>
    if (items.get? curReadIdx).isSome then some curReadIdx else scanFront items n (curReadIdx + 1)

/-- `none` is a scan that has passed every index ever written. -/
def getFrontItemIndex (q : FileStore) : Option (Option Int) :=
  if q.itemsByIdx.length = 0 then some none
  else (scanFront q.itemsByIdx (q.writeIdx - q.readIdx).toNat q.readIdx).map some

/-- `pushItemToBack`: its error, and what it leaves; `none` is a panic. -/
def pushItemToBack (q : FileStore) (dir : Dir) :
    Option Bytes → Option (Option StoreError × FileStore × Dir)
  | none => some (some .cannotQueueNil, q, dir)
  | some item =>
    if q.itemsByIdx.length > q.capacity then some (some .full, q, dir)
    else do
      let availableItems ← q.availableItems.release
      let q' := { q with
        itemsByIdx := q.itemsByIdx.set q.writeIdx item
        writeIdx := q.writeIdx + 1
        availableItems }
      some (none, q', writeFile q.writeIdx item dir)

/-- `popFrontItem`: the item, if there is one, and what is left; `none` does not return. -/
def popFrontItem (q : FileStore) (dir : Dir) : Option (Option Bytes × FileStore × Dir) := do
  match ← q.getFrontItemIndex with
  | none => some (none, q, dir)
  | some frontIdx =>
    let availableSlots ← q.availableSlots.release
    let q' := { q with
      itemsByIdx := q.itemsByIdx.erase frontIdx
      readIdx := frontIdx + 1
      availableSlots }
    some (q.itemsByIdx.get? frontIdx, q', removeFile frontIdx dir)

def peekFrontItem (q : FileStore) : Option (Option Bytes) := do
  match ← q.getFrontItemIndex with
  | none => some none
  | some frontIdx => some (q.itemsByIdx.get? frontIdx)

/-- The blobs in the order of their indices. -/
def contents (q : FileStore) : List Bytes :=
  (q.itemsByIdx.insertionSort fun a b => a.1 ≤ b.1).map Prod.snd

end FileStore

/-! ## Callers -/

/-- A store with its directory and the callers between a semaphore and the lock: the blobs being
enqueued, and how many callers will pop for a dequeue or after `WaitNonEmpty`. -/
structure StoreSystem where
  store : FileStore
  dir : Dir
  enqueuing : List Bytes
  dequeuing : Nat
  waiting : Nat
deriving DecidableEq, Repr

namespace StoreSystem

/-- `NewFileStore` on a directory; the callers of an earlier process are gone. -/
def newFileStore (capacity : Nat) (dir : Dir) : Option StoreSystem :=
  (FileStore.reload capacity dir).map fun store => ⟨store, dir, [], 0, 0⟩

def acquireSlot (s : StoreSystem) (item : Bytes) : Option StoreSystem :=
  s.store.availableSlots.tryAcquire.map fun availableSlots =>
    { s with store := { s.store with availableSlots }, enqueuing := s.enqueuing ++ [item] }

def acquireItem (s : StoreSystem) : Option StoreSystem :=
  s.store.availableItems.tryAcquire.map fun availableItems =>
    { s with store := { s.store with availableItems } }

/-- `popFrontItem` by a caller that has an item reserved. -/
def popFront (s : StoreSystem) : StoreSystem × QueueResult Bytes :=
  match s.store.popFrontItem s.dir with
  | none => (s, .crashed)
  | some (none, store, dir) => ({ s with store, dir }, .empty)
  | some (some item, store, dir) => ({ s with store, dir }, .removed item)

/-- One half of an operation by one of the callers; `none` when a caller has to wait, or when there
is no such caller. -/
def step (s : StoreSystem) : QueueOp Bytes → Option (StoreSystem × QueueResult Bytes)
  | .tryEnqueue item =>
    match s.acquireSlot item with
    | some s' => some (s', .reserved)
    | none => some (s, .full)
  | .enqueue item => (s.acquireSlot item).map fun s' => (s', .reserved)
  | .push i =>
    s.enqueuing[i]?.map fun item =>
      let enqueuing := s.enqueuing.eraseIdx i
      match s.store.pushItemToBack s.dir (some item) with
      | none => (s, .crashed)
      | some (some _, store, dir) => ({ s with store, dir, enqueuing }, .full)
      | some (none, store, dir) => ({ s with store, dir, enqueuing }, .stored item)
  | .tryDequeue =>
    match s.acquireItem with
    | some s' => some ({ s' with dequeuing := s'.dequeuing + 1 }, .reserved)
    | none => some (s, .empty)
  | .dequeue =>
    s.acquireItem.map fun s' => ({ s' with dequeuing := s'.dequeuing + 1 }, .reserved)
  | .take =>
    if 0 < s.dequeuing then some ({ s with dequeuing := s.dequeuing - 1 }.popFront) else none
  | .waitNonEmpty =>
    s.acquireItem.map fun s' => ({ s' with waiting := s'.waiting + 1 }, .reserved)
  | .peek =>
    match s.store.peekFrontItem with
    | none => some (s, .crashed)
    | some item => some (s, .peeked item)
  | .pop =>
    if 0 < s.waiting then some ({ s with waiting := s.waiting - 1 }.popFront) else none
  | .restart capacity =>
    match newFileStore capacity s.dir with
    | none => some (s, .crashed)
    | some s' => some (s', .restarted)

end StoreSystem

end Rdfm.Linux
