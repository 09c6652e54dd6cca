import Rdfm.Linux.FileStore

/-!
# The file store is a bounded queue

The abstract side is `BoundedQueue`. A store represents a queue (`Represents`) when its files and
its cache both hold the items at consecutive indices from `readIdx` up to `writeIdx`, and each
semaphore counts what the callers have reserved. Every half of an operation, and every restart,
keeps this and gives the same answer (`bisimulates`), so whole runs do (`fileStore_refines_queue`).
-/

namespace Rdfm.Linux

open Rdfm.Lib

/-! ## Semaphores -/

namespace Semaphore

theorem tryAcquireN_eq (n : Nat) {size cur : Nat} (h : cur ≤ size) :
    tryAcquireN n ⟨size, cur⟩ = ⟨size, min size (cur + n)⟩ := by
  induction n generalizing cur with
  | zero => rw [tryAcquireN, Nat.add_zero, Nat.min_eq_right h]
  | succ n ih =>
    rw [tryAcquireN, tryAcquire]
    by_cases hlt : cur < size
    · rw [if_pos hlt, Option.getD_some, ih (by exact hlt), Nat.add_right_comm, Nat.add_assoc]
    · rw [if_neg hlt, Option.getD_none, ih h]
      congr 1
      omega

theorem releaseN_eq (n : Nat) {size cur : Nat} (h : n ≤ cur) :
    releaseN n ⟨size, cur⟩ = some ⟨size, cur - n⟩ := by
  induction n generalizing cur with
  | zero => rw [releaseN, Nat.sub_zero]
  | succ n ih =>
    have hpos : 0 < cur := by omega
    have hrest : n ≤ cur - 1 := by omega
    rw [releaseN, release, if_pos hpos, Option.bind_some, ih hrest, Nat.sub_sub, Nat.add_comm]

end Semaphore

/-! ## What is stored -/

namespace FileStore

/-- The index of an item, as a key of the cache. -/
def idxKey (n : Nat) : Int := n

theorem idxKey_injective : Function.Injective idxKey := fun _ _ h => Int.ofNat.inj h

/-- Cache and files hold the items `xs` from index `lo` on. -/
structure Stored (q : FileStore) (dir : Dir) (lo : Nat) (xs : List Bytes) : Prop where
  readIdx : q.readIdx = lo
  writeIdx : q.writeIdx = lo + xs.length
  items : Entries.Holds idxKey lo xs q.itemsByIdx
  files : Entries.Holds itoa lo xs dir

variable {q : FileStore} {dir : Dir} {lo : Nat} {x : Bytes} {xs : List Bytes}

theorem Stored.length (h : Stored q dir lo xs) : q.itemsByIdx.length = xs.length := h.items.length

/-- The scan ends at once, at the read index. -/
theorem Stored.frontIdx (h : Stored q dir lo (x :: xs)) :
    q.getFrontItemIndex = some (some (lo : Int)) := by
  have hget : q.itemsByIdx.get? (lo : Int) = some x := h.items.get?_front idxKey_injective
  have hlen : q.itemsByIdx.length ≠ 0 := by
    rw [h.length, List.length_cons]
    omega
  have hrounds : (q.writeIdx - q.readIdx).toNat = xs.length + 1 := by
    rw [h.writeIdx, h.readIdx, List.length_cons]
    omega
  unfold getFrontItemIndex
  rw [if_neg hlen, hrounds, scanFront, h.readIdx, hget, Option.isSome_some, if_pos rfl,
    Option.map_some]

theorem Stored.frontIdx_nil (h : Stored q dir lo []) : q.getFrontItemIndex = some none := by
  unfold getFrontItemIndex
  exact if_pos h.length

theorem Stored.peek (h : Stored q dir lo xs) : q.peekFrontItem = some xs.head? := by
  unfold peekFrontItem
  cases xs with
  | nil => simp [h.frontIdx_nil]
  | cons x xs =>
    have hget : q.itemsByIdx.get? (lo : Int) = some x := h.items.get?_front idxKey_injective
    simp [h.frontIdx, hget]

/-- A push puts the item behind the others, in memory and on disk. -/
theorem Stored.push (h : Stored q dir lo xs) (hcap : xs.length ≤ q.capacity)
    (hitems : 0 < q.availableItems.cur) (item : Bytes) :
    ∃ q' dir', q.pushItemToBack dir (some item) = some (none, q', dir') ∧
      Stored q' dir' lo (xs ++ [item]) ∧ q'.capacity = q.capacity ∧
      q'.availableSlots = q.availableSlots ∧
      q'.availableItems = ⟨q.availableItems.size, q.availableItems.cur - 1⟩ := by
  have hroom : ¬ q.itemsByIdx.length > q.capacity := by
    rw [h.length]
    omega
  have hidx : q.writeIdx = idxKey (lo + xs.length) := h.writeIdx
  have hpath : pathFromIdx q.writeIdx = itoa (lo + xs.length) := by
    rw [hidx]
    rfl
  unfold pushItemToBack
  simp only [if_neg hroom, Semaphore.release, if_pos hitems, Option.bind_eq_bind, Option.bind_some]
  refine ⟨_, _, rfl, ⟨h.readIdx, ?_, ?_, ?_⟩, rfl, rfl, rfl⟩
  · dsimp only
    rw [h.writeIdx, List.length_append, List.length_singleton]
    omega
  · dsimp only
    rw [hidx]
    exact h.items.set_next idxKey_injective item
  · unfold writeFile
    rw [hpath]
    exact h.files.set_next itoa_injective item

/-- A pop takes the first item, in memory and on disk. -/
theorem Stored.pop (h : Stored q dir lo (x :: xs)) (hslots : 0 < q.availableSlots.cur) :
    ∃ q' dir', q.popFrontItem dir = some (some x, q', dir') ∧ Stored q' dir' (lo + 1) xs ∧
      q'.capacity = q.capacity ∧ q'.availableItems = q.availableItems ∧
      q'.availableSlots = ⟨q.availableSlots.size, q.availableSlots.cur - 1⟩ := by
  have hget : q.itemsByIdx.get? (lo : Int) = some x := h.items.get?_front idxKey_injective
  unfold popFrontItem
  simp only [h.frontIdx, Semaphore.release, if_pos hslots, Option.bind_eq_bind, Option.bind_some,
    hget]
  refine ⟨_, _, rfl, ⟨?_, ?_, ?_, ?_⟩, rfl, rfl, rfl⟩
  · push_cast
    rfl
  · dsimp only
    rw [h.writeIdx, List.length_cons]
    push_cast
    omega
  · exact h.items.erase_front idxKey_injective
  · exact h.files.erase_front itoa_injective

/-! ## Reloading -/

theorem idxFromPath_itoa (n : Nat) : idxFromPath (itoa n) = some (idxKey n) := parseSigned_itoa n

/-- The entry of the cache that a file gives. -/
def loaded : FileName × Bytes → Int × Bytes := Prod.map (fun name => (idxFromPath name).getD 0) id

/-- Files with distinct numbers for names are all loaded. -/
theorem loadItems_eq {files : List (FileName × Bytes)} {items : Entries Int Bytes}
    (hfiles : ∀ e ∈ files, ∃ i, e.1 = itoa i ∧ dir.get? (itoa i) = some e.2)
    (hnodup : (files.map Prod.fst).Nodup)
    (hfresh : ∀ a ∈ items, ∀ e ∈ files, pathFromIdx a.1 ≠ e.1) :
    loadItems dir files items = some (items ++ files.map loaded) := by
  induction files generalizing items with
  | nil => rw [loadItems, List.map_nil, List.append_nil]
  | cons e files ih =>
    rcases hfiles e (List.mem_cons_self ..) with ⟨i, hname, hread⟩
    rw [List.map_cons, List.nodup_cons] at hnodup
    have hread' : readFile (idxKey i) dir = some e.2 := hread
    have hload : loaded e = (idxKey i, e.2) := by
      unfold loaded
      rw [Prod.map, hname, idxFromPath_itoa]
      rfl
    have hset : items.set (idxKey i) e.2 = items ++ [loaded e] := by
      unfold Entries.set
      rw [Entries.erase_of_fresh, hload]
      intro a ha hk
      apply hfresh a ha e (List.mem_cons_self ..)
      rw [hk, hname]
      rfl
    have hrest : loadItems dir files (items ++ [loaded e]) =
        some (items ++ [loaded e] ++ files.map loaded) := by
      apply ih (fun e' he' => hfiles e' (List.mem_cons_of_mem _ he')) hnodup.2
      intro a ha e' he'
      rcases List.mem_append.mp ha with ha | ha
      · exact hfresh a ha e' (List.mem_cons_of_mem _ he')
      · rw [List.mem_singleton.mp ha, hload]
        intro hk
        apply hnodup.1
        rw [hname.trans hk]
        exact List.mem_map_of_mem he'
    rcases e with ⟨name, b⟩
    dsimp only at hname hread'
    rw [loadItems, hname, idxFromPath_itoa]
    dsimp only
    rw [hread', Option.bind_some, hset, hrest, List.append_assoc, List.map_cons,
      List.singleton_append, hname]

/-- What `Reload` reads back from the files. -/
theorem loadItems_of_holds (h : Entries.Holds itoa lo xs dir) :
    ∃ items, loadItems dir (readDir dir) [] = some items ∧ Entries.Holds idxKey lo xs items := by
  have hperm : (readDir dir).Perm dir := List.perm_insertionSort _ dir
  refine ⟨(readDir dir).map loaded, ?_, ?_⟩
  · rw [loadItems_eq, List.nil_append]
    · intro e he
      rcases Entries.exists_of_mem_indexed (h.mem_iff.mp (hperm.mem_iff.mp he)) with ⟨i, -, -, hi⟩
      refine ⟨i, hi, ?_⟩
      rw [← hi]
      exact h.get?_of_mem itoa_injective (hperm.mem_iff.mp he)
    · exact (hperm.map Prod.fst).nodup_iff.mpr (h.nodup itoa_injective)
    · intro a ha
      cases ha
  · have hkey : (fun name => (idxFromPath name).getD 0) ∘ itoa = idxKey := by
      funext n
      rw [Function.comp_apply, idxFromPath_itoa]
      rfl
    have hmap := (hperm.trans h).map loaded
    unfold loaded at hmap
    rw [Entries.map_indexed, hkey] at hmap
    exact hmap

/-- A scan that takes the first index, and each one that comes before what it has, ends with the one
before all others. -/
theorem scan_eq {scan : List Int → Int → Int} {before : Int → Int → Prop} [DecidableRel before]
    (hnil : ∀ m, scan [] m = m)
    (hcons : ∀ i l m, scan (i :: l) m = scan l (if m = -1 ∨ before i m then i else m))
    {l : List Int} {a m : Int} (ha : a ≠ -1)
    (hfirst : ∀ i ∈ l, i ≠ -1 ∧ (i = a ∨ before a i ∧ ¬ before i a))
    (hm : m = -1 ∨ m = a ∨ before a m) (hmem : m = a ∨ a ∈ l) : scan l m = a := by
  induction l generalizing m with
  | nil =>
    rcases hmem with rfl | hmem
    · exact hnil m
    · cases hmem
  | cons i l ih =>
    obtain ⟨⟨hi, hbefore⟩, hrest⟩ := List.forall_mem_cons.mp hfirst
    rw [hcons]
    apply ih hrest
    · split
      · exact .inr (hbefore.imp_right And.left)
      · exact hm
    · rcases hmem with rfl | hmem
      · left
        split
        · next htaken =>
          rcases hbefore with rfl | hbefore
          · rfl
          · exact (htaken.elim ha hbefore.2).elim
        · rfl
      · rcases List.mem_cons.mp hmem with rfl | hmem
        · left
          split
          · rfl
          · next hkept =>
            rw [not_or] at hkept
            rcases hm with hm | hm | hm
            · exact (hkept.1 hm).elim
            · exact hm
            · exact (hkept.2 hm).elim
        · exact .inr hmem

theorem minIdx_eq {l : List Int} {a m : Int} (ha : 0 ≤ a) (hle : ∀ i ∈ l, a ≤ i)
    (hm : m = -1 ∨ a ≤ m) (hmem : m = a ∨ a ∈ l) : minIdx l m = a := by
  refine scan_eq (fun _ => rfl) (fun _ _ _ => rfl) (by omega) (fun i hi => ?_) (by omega) hmem
  have := hle i hi
  omega

theorem maxIdx_eq {l : List Int} {a m : Int} (ha : 0 ≤ a) (hle : ∀ i ∈ l, 0 ≤ i ∧ i ≤ a)
    (hm : m = -1 ∨ 0 ≤ m ∧ m ≤ a) (hmem : m = a ∨ a ∈ l) : maxIdx l m = a := by
  refine scan_eq (fun _ => rfl) (fun _ _ _ => rfl) (by omega) (fun i hi => ?_) (by omega) hmem
  have := hle i hi
  omega

/-- The indices of a cache that holds something. -/
theorem idx_bounds {items : Entries Int Bytes} (h : Entries.Holds idxKey lo (xs ++ [x]) items) :
    minIdx (items.map Prod.fst) (-1) = lo ∧ maxIdx (items.map Prod.fst) (-1) = lo + xs.length := by
  have hkeys : ∀ i ∈ items.map Prod.fst, (lo : Int) ≤ i ∧ i ≤ lo + xs.length := by
    intro i hi
    rcases List.mem_map.mp hi with ⟨e, he, rfl⟩
    rcases Entries.exists_of_mem_indexed (h.mem_iff.mp he) with ⟨n, hlo, hhi, hn⟩
    rw [List.length_append, List.length_singleton] at hhi
    rw [hn]
    unfold idxKey
    omega
  have hlast : ((lo : Int) + xs.length) ∈ items.map Prod.fst := by
    refine List.mem_map.mpr ⟨(idxKey (lo + xs.length), x), ?_, by unfold idxKey; push_cast; rfl⟩
    rw [h.mem_iff, Entries.indexed_concat]
    simp
  have hfirst : (lo : Int) ∈ items.map Prod.fst := by
    rcases xs with _ | ⟨y, ys⟩
    · simpa using hlast
    · exact List.mem_map.mpr ⟨(idxKey lo, y), h.mem_iff.mpr (List.mem_cons_self ..), rfl⟩
  refine ⟨minIdx_eq (by omega) (fun i hi => (hkeys i hi).1) (.inl rfl) (.inr hfirst), ?_⟩
  apply maxIdx_eq (by omega) _ (.inl rfl) (.inr hlast)
  intro i hi
  have := hkeys i hi
  omega

/-- A restart finds the same items; the capacity grows to their number. -/
theorem reload_of_holds (capacity : Nat) (h : Entries.Holds itoa lo xs dir) :
    ∃ q lo', reload capacity dir = some q ∧ Stored q dir lo' xs ∧
      q.capacity = max capacity xs.length ∧
      q.availableSlots = ⟨max capacity xs.length, xs.length⟩ ∧
      q.availableItems = ⟨max capacity xs.length, max capacity xs.length - xs.length⟩ := by
  rcases loadItems_of_holds h with ⟨items, hload, hitems⟩
  have hlen : items.length = xs.length := hitems.length
  have hcap : (if capacity < items.length then items.length else capacity) =
      max capacity xs.length := by
    rw [hlen]
    split <;> omega
  have hslots : (Semaphore.newWeighted (max capacity xs.length)).tryAcquireN items.length =
      ⟨max capacity xs.length, xs.length⟩ := by
    unfold Semaphore.newWeighted
    rw [Semaphore.tryAcquireN_eq _ (Nat.zero_le _), hlen, Nat.zero_add,
      Nat.min_eq_right (Nat.le_max_right _ _)]
  have havail : ((Semaphore.newWeighted (max capacity xs.length)).tryAcquireN
      (max capacity xs.length)).releaseN items.length =
      some ⟨max capacity xs.length, max capacity xs.length - xs.length⟩ := by
    unfold Semaphore.newWeighted
    rw [Semaphore.tryAcquireN_eq _ (Nat.zero_le _), Nat.zero_add, Nat.min_self,
      Semaphore.releaseN_eq _ (by rw [hlen]; exact Nat.le_max_right _ _), hlen]
  unfold reload
  simp only [hload, Option.bind_eq_bind, Option.bind_some, hcap, hslots, havail]
  rcases List.eq_nil_or_concat xs with rfl | ⟨ys, y, rfl⟩
  · have hnil : items = [] := List.eq_nil_of_length_eq_zero hlen
    subst hnil
    exact ⟨_, 0, rfl, ⟨rfl, rfl, hitems, h⟩, rfl, rfl, rfl⟩
  · rw [List.concat_eq_append] at *
    rcases idx_bounds hitems with ⟨hmin, hmax⟩
    have hne : (lo : Int) ≠ -1 := by omega
    refine ⟨_, lo, rfl, ⟨?_, ?_, hitems, h⟩, rfl, rfl, rfl⟩
    · simp only [hmin, if_neg hne]
    · simp only [hmin, hmax, if_neg hne, List.length_append, List.length_singleton]
      push_cast
      omega

/-- The items in the order of their indices. -/
theorem Stored.contents (h : Stored q dir lo xs) : q.contents = xs := by
  have hsorted : (Entries.indexed idxKey lo xs).Pairwise fun a b => a.1 ≤ b.1 := by
    clear h
    induction xs generalizing lo with
    | nil => exact List.Pairwise.nil
    | cons x xs ih =>
      rw [Entries.indexed, List.pairwise_cons]
      refine ⟨?_, ih⟩
      intro e he
      rcases Entries.exists_of_mem_indexed he with ⟨i, hlo, -, hi⟩
      rw [hi]
      unfold idxKey
      omega
  have : Std.Total fun a b : Int × Bytes => a.1 ≤ b.1 := ⟨fun a b => Int.le_total a.1 b.1⟩
  have : IsTrans (Int × Bytes) fun a b => a.1 ≤ b.1 := ⟨fun a b c => Int.le_trans⟩
  have hperm := (List.perm_insertionSort (fun a b : Int × Bytes => a.1 ≤ b.1) q.itemsByIdx).trans
    h.items
  have heq := List.Perm.eq_of_pairwise ?_
    (List.pairwise_insertionSort (fun a b : Int × Bytes => a.1 ≤ b.1) q.itemsByIdx) hsorted hperm
  · unfold FileStore.contents
    rw [heq, Entries.map_snd_indexed]
  · intro a b ha hb hab hba
    have ha' : a ∈ Entries.indexed idxKey lo xs := hperm.mem_iff.mp ha
    have hk : a.1 = b.1 := Int.le_antisymm hab hba
    have hnodup := Entries.nodup_indexed idxKey_injective lo xs
    have hga := Entries.get?_eq_some hnodup ha'
    have hgb := Entries.get?_eq_some hnodup hb
    rw [hk, hgb, Option.some.injEq] at hga
    exact Prod.ext hk hga.symm

end FileStore

/-! ## The store and the queue -/

namespace StoreSystem

/-- The store with its callers represents the queue `q`. -/
structure Represents (s : StoreSystem) (q : BoundedQueue Bytes) : Prop where
  bounded : q.Bounded
  enqueuing : s.enqueuing = q.enqueuing
  dequeuing : s.dequeuing = q.dequeuing
  waiting : s.waiting = q.waiting
  capacity : s.store.capacity = q.limit
  slots : s.store.availableSlots = ⟨q.limit, q.items.length + q.enqueuing.length⟩
  items : s.store.availableItems = ⟨q.limit, q.limit - q.items.length + q.reserved⟩
  stored : ∃ lo, FileStore.Stored s.store s.dir lo q.items

variable {s s' : StoreSystem} {q : BoundedQueue Bytes}

theorem stored_congr {store store' : FileStore} {dir : Dir} {lo : Nat} {xs : List Bytes}
    (h : FileStore.Stored store dir lo xs) (hr : store'.readIdx = store.readIdx)
    (hw : store'.writeIdx = store.writeIdx) (hi : store'.itemsByIdx = store.itemsByIdx) :
    FileStore.Stored store' dir lo xs :=
  ⟨hr.trans h.readIdx, hw.trans h.writeIdx, by rw [hi]; exact h.items, h.files⟩

/-- A slot can be had exactly while the queue has room. -/
theorem acquireSlot_of_room (h : Represents s q) (hroom : q.hasRoom) (item : Bytes) :
    ∃ s', s.acquireSlot item = some s' ∧
      Represents s' { q with enqueuing := q.enqueuing ++ [item] } := by
  have hb := h.bounded
  rcases h.stored with ⟨lo, hstored⟩
  unfold BoundedQueue.hasRoom at hroom
  unfold acquireSlot Semaphore.tryAcquire
  rw [h.slots, if_pos hroom, Option.map_some]
  refine ⟨_, rfl, ⟨?_, hb.items⟩, ?_, h.dequeuing, h.waiting, h.capacity, ?_, h.items, lo,
    stored_congr hstored rfl rfl rfl⟩
  · simp only [List.length_append, List.length_singleton]
    omega
  · dsimp only
    rw [h.enqueuing]
  · dsimp only
    rw [List.length_append, List.length_singleton, Nat.add_assoc]

theorem acquireSlot_of_full (h : Represents s q) (hroom : ¬ q.hasRoom) (item : Bytes) :
    s.acquireSlot item = none := by
  unfold BoundedQueue.hasRoom at hroom
  unfold acquireSlot Semaphore.tryAcquire
  rw [h.slots, if_neg hroom, Option.map_none]

/-- An item can be reserved exactly while there is one that nobody else has reserved. -/
theorem acquireItem_of_item (h : Represents s q) (hitem : q.hasItem) :
    ∃ s', s.acquireItem = some s' ∧ s'.dequeuing = q.dequeuing ∧ s'.waiting = q.waiting ∧
      ∀ d w, d + w = q.reserved + 1 → Represents { s' with dequeuing := d, waiting := w }
        { q with dequeuing := d, waiting := w } := by
  have hb := h.bounded
  have hroom := hb.room
  rcases h.stored with ⟨lo, hstored⟩
  unfold BoundedQueue.hasItem at hitem
  unfold acquireItem Semaphore.tryAcquire
  rw [h.items, if_pos (by dsimp only; omega), Option.map_some]
  refine ⟨_, rfl, h.dequeuing, h.waiting, ?_⟩
  intro d w hdw
  refine ⟨⟨hroom, ?_⟩, h.enqueuing, rfl, rfl, h.capacity, h.slots, ?_, lo,
    stored_congr hstored rfl rfl rfl⟩
  · change d + w ≤ q.items.length
    omega
  · change Semaphore.mk _ _ = Semaphore.mk q.limit (q.limit - q.items.length + (d + w))
    rw [hdw, Nat.add_assoc]

theorem acquireItem_of_none (h : Represents s q) (hitem : ¬ q.hasItem) : s.acquireItem = none := by
  have hroom := h.bounded.room
  unfold BoundedQueue.hasItem at hitem
  unfold acquireItem Semaphore.tryAcquire
  rw [h.items, if_neg (by dsimp only; omega), Option.map_none]

/-- A caller that takes an item it has reserved. -/
theorem popFront_eq (h : Represents s q) {d w : Nat} {t : StoreSystem} {p : BoundedQueue Bytes}
    (ht : t = { s with dequeuing := d, waiting := w })
    (hp : p = { q with dequeuing := d, waiting := w }) (hdw : d + w + 1 = q.reserved) :
    Represents t.popFront.1 p.removeFront.1 ∧ t.popFront.2 = p.removeFront.2 := by
  have hb := h.bounded
  have hres := hb.items
  have hroom := hb.room
  have hpos : 0 < p.items.length := by
    rw [hp]
    change 0 < q.items.length
    omega
  rcases BoundedQueue.removeFront_of_reserved hpos with ⟨item, items, hitems, hremove⟩
  have hq : q.items = item :: items := by rwa [hp] at hitems
  rcases h.stored with ⟨lo, hstored⟩
  rw [hq] at hstored hres hroom
  rw [List.length_cons] at hres hroom
  have hslots : 0 < s.store.availableSlots.cur := by
    rw [h.slots, hq, List.length_cons]
    dsimp only
    omega
  rcases hstored.pop hslots with ⟨store', dir', hpop, hstored', hcap, havail, hslots'⟩
  have hpop' : t.popFront = ({ t with store := store', dir := dir' }, .removed item) := by
    unfold popFront
    rw [ht]
    dsimp only
    rw [hpop]
  rw [hpop', hremove, hp, ht]
  refine ⟨⟨⟨?_, ?_⟩, h.enqueuing, rfl, rfl, hcap.trans h.capacity, ?_, ?_, lo + 1, hstored'⟩, rfl⟩
  · dsimp only
    omega
  · unfold BoundedQueue.reserved
    dsimp only
    omega
  · dsimp only
    rw [hslots', h.slots, hq, List.length_cons]
    congr 1
    dsimp only
    omega
  · dsimp only
    rw [havail, h.items, hq, List.length_cons]
    congr 1
    unfold BoundedQueue.reserved at hdw ⊢
    dsimp only
    omega

theorem push_eq (h : Represents s q) {i : Nat} {item : Bytes} (hi : q.enqueuing[i]? = some item) :
    ∃ store dir, s.store.pushItemToBack s.dir (some item) = some (none, store, dir) ∧
      Represents { s with store, dir, enqueuing := s.enqueuing.eraseIdx i }
        { q with items := q.items ++ [item], enqueuing := q.enqueuing.eraseIdx i } := by
  have hb := h.bounded
  have hres := hb.items
  have hroom := hb.room
  have hlt : i < q.enqueuing.length := (List.getElem?_eq_some_iff.mp hi).1
  rcases h.stored with ⟨lo, hstored⟩
  have hcap : q.items.length ≤ s.store.capacity := by
    rw [h.capacity]
    omega
  have hcur : 0 < s.store.availableItems.cur := by
    rw [h.items]
    dsimp only
    omega
  rcases hstored.push hcap hcur item with ⟨store', dir', hpush, hstored', hcap', hslots', havail'⟩
  have hstep : q.step (.push i) = some
      ({ q with items := q.items ++ [item], enqueuing := q.enqueuing.eraseIdx i },
        .stored item) := by
    unfold BoundedQueue.step
    simp [hi]
  refine ⟨store', dir', hpush, BoundedQueue.bounded_step hb hstep, ?_, h.dequeuing, h.waiting,
    hcap'.trans h.capacity, ?_, ?_, lo, hstored'⟩
  · dsimp only
    rw [h.enqueuing]
  · dsimp only
    rw [hslots', h.slots, List.length_append, List.length_singleton,
      List.length_eraseIdx_of_lt hlt]
    congr 1
    omega
  · dsimp only
    rw [havail', h.items, List.length_append, List.length_singleton]
    congr 1
    unfold BoundedQueue.reserved
    dsimp only
    omega

theorem restart_eq (capacity : Nat) {dir : Dir} {lo : Nat} {xs : List Bytes}
    (h : Entries.Holds itoa lo xs dir) :
    ∃ s', newFileStore capacity dir = some s' ∧
      Represents s' ⟨max capacity xs.length, xs, [], 0, 0⟩ := by
  rcases FileStore.reload_of_holds capacity h with ⟨store, lo', hload, hstored, hcap, hslots, hitems⟩
  refine ⟨⟨store, dir, [], 0, 0⟩, ?_, ⟨Nat.le_max_right _ _, Nat.zero_le _⟩, rfl, rfl, rfl, hcap,
    hslots, hitems, lo', hstored⟩
  unfold newFileStore
  rw [hload, Option.map_some]

/-- **Each half of an operation answers as the queue does**, in every state that represents one. -/
theorem bisimulates : Bisimulates Represents step BoundedQueue.step := by
  intro s q op h
  cases op with
  | tryEnqueue item =>
    by_cases hroom : q.hasRoom
    · rcases acquireSlot_of_room h hroom item with ⟨s', hs', hR⟩
      simp only [step, BoundedQueue.step, hs', if_pos hroom]
      exact .some ⟨hR, rfl⟩
    · simp only [step, BoundedQueue.step, acquireSlot_of_full h hroom, if_neg hroom]
      exact .some ⟨h, rfl⟩
  | enqueue item =>
    by_cases hroom : q.hasRoom
    · rcases acquireSlot_of_room h hroom item with ⟨s', hs', hR⟩
      simp only [step, BoundedQueue.step, hs', if_pos hroom, Option.map_some]
      exact .some ⟨hR, rfl⟩
    · simp only [step, BoundedQueue.step, acquireSlot_of_full h hroom, if_neg hroom,
        Option.map_none]
      exact .none
  | push i =>
    simp only [step, BoundedQueue.step, h.enqueuing]
    cases hi : q.enqueuing[i]? with
    | none => exact .none
    | some item =>
      rcases push_eq h hi with ⟨store, dir, hpush, hR⟩
      simp only [Option.map_some, hpush]
      rw [h.enqueuing] at hR
      exact .some ⟨hR, rfl⟩
  | tryDequeue =>
    by_cases hitem : q.hasItem
    · rcases acquireItem_of_item h hitem with ⟨s', hs', hd, hw, hR⟩
      simp only [step, BoundedQueue.step, hs', if_pos hitem]
      refine .some ⟨?_, rfl⟩
      dsimp only
      rw [hd, hw]
      exact hR (q.dequeuing + 1) q.waiting (by unfold BoundedQueue.reserved; omega)
    · simp only [step, BoundedQueue.step, acquireItem_of_none h hitem, if_neg hitem]
      exact .some ⟨h, rfl⟩
  | dequeue =>
    by_cases hitem : q.hasItem
    · rcases acquireItem_of_item h hitem with ⟨s', hs', hd, hw, hR⟩
      simp only [step, BoundedQueue.step, hs', if_pos hitem, Option.map_some]
      refine .some ⟨?_, rfl⟩
      dsimp only
      rw [hd, hw]
      exact hR (q.dequeuing + 1) q.waiting (by unfold BoundedQueue.reserved; omega)
    · simp only [step, BoundedQueue.step, acquireItem_of_none h hitem, if_neg hitem,
        Option.map_none]
      exact .none
  | take =>
    simp only [step, BoundedQueue.step, h.dequeuing]
    by_cases hd : 0 < q.dequeuing
    · rw [if_pos hd, if_pos hd]
      exact .some (popFront_eq h (by rw [← h.waiting]) rfl
        (by unfold BoundedQueue.reserved; omega))
    · rw [if_neg hd, if_neg hd]
      exact .none
  | waitNonEmpty =>
    by_cases hitem : q.hasItem
    · rcases acquireItem_of_item h hitem with ⟨s', hs', hd, hw, hR⟩
      simp only [step, BoundedQueue.step, hs', if_pos hitem, Option.map_some]
      refine .some ⟨?_, rfl⟩
      dsimp only
      rw [hd, hw]
      exact hR q.dequeuing (q.waiting + 1) (by unfold BoundedQueue.reserved; omega)
    · simp only [step, BoundedQueue.step, acquireItem_of_none h hitem, if_neg hitem,
        Option.map_none]
      exact .none
  | peek =>
    rcases h.stored with ⟨lo, hstored⟩
    simp only [step, BoundedQueue.step, hstored.peek]
    exact .some ⟨h, rfl⟩
  | pop =>
    simp only [step, BoundedQueue.step, h.waiting]
    by_cases hw : 0 < q.waiting
    · rw [if_pos hw, if_pos hw]
      exact .some (popFront_eq h (by rw [← h.dequeuing]) rfl
        (by unfold BoundedQueue.reserved; omega))
    · rw [if_neg hw, if_neg hw]
      exact .none
  | restart capacity =>
    rcases h.stored with ⟨lo, hstored⟩
    rcases restart_eq capacity hstored.files with ⟨s', hs', hR⟩
    simp only [step, BoundedQueue.step, hs']
    exact .some ⟨hR, rfl⟩

/-! ## Whole runs -/

/-- What a store serving its callers guarantees, after a run with the answers `rs`. -/
structure ServesAsQueue (rs : List (QueueResult Bytes)) (s : StoreSystem) : Prop where
  /-- What was removed, then what is stored, is what was enqueued. -/
  conserved : BoundedQueue.removedBy rs ++ s.store.contents = BoundedQueue.storedBy rs
  /-- Every operation ended. -/
  ended : .crashed ∉ rs
  /-- An enqueue is refused exactly when stored items and enqueues in progress fill the store. -/
  full_iff : ∀ item, step s (.tryEnqueue item) = some (s, .full) ↔
    s.store.contents.length + s.enqueuing.length = s.store.capacity
  /-- A dequeue is refused exactly when every stored item is reserved. -/
  empty_iff : step s .tryDequeue = some (s, .empty) ↔
    s.store.contents.length = s.dequeuing + s.waiting
  /-- `Peek` sees the front item. -/
  peeks : step s .peek = some (s, .peeked s.store.contents.head?)
  /-- A restart sets the capacity, to no less than the items found. -/
  capacity : ∀ op s' r, step s op = some (s', r) →
    s'.store.capacity = op.limitAfter s.store.capacity s.store.contents.length
  /-- Files and cache map the same indices to the same blobs. -/
  same_map : ∀ idx, s.dir.get? (pathFromIdx idx) = s.store.itemsByIdx.get? idx
  /-- There are no other files. -/
  only_items : ∀ e ∈ s.dir, ∃ idx, e.1 = pathFromIdx idx
  /-- The scan for the front item ends. -/
  scan_ends : s.store.itemsByIdx ≠ [] →
    ∃ rounds idx, FileStore.scanFront s.store.itemsByIdx rounds s.store.readIdx = some idx

theorem pathFromIdx_negSucc_ne (n m : Nat) : pathFromIdx (.negSucc n) ≠ itoa m := by
  intro h
  have hmem : '-' ∈ itoa m := by
    rw [← h]
    exact List.mem_cons_self ..
  exact not_mem_itoa rfl hmem

theorem same_map_of_stored {store : FileStore} {dir : Dir} {lo : Nat} {xs : List Bytes}
    (h : FileStore.Stored store dir lo xs) (idx : Int) :
    dir.get? (pathFromIdx idx) = store.itemsByIdx.get? idx := by
  cases idx with
  | ofNat n =>
    exact (h.files.get?_key itoa_injective n).trans
      (h.items.get?_key FileStore.idxKey_injective n).symm
  | negSucc n =>
    rw [h.files.get?_eq_none, h.items.get?_eq_none]
    · intro m hm
      exact absurd hm (by unfold FileStore.idxKey; omega)
    · exact fun m => pathFromIdx_negSucc_ne n m

theorem full_iff (h : Represents s q) (item : Bytes) :
    step s (.tryEnqueue item) = some (s, .full) ↔
      q.items.length + q.enqueuing.length = q.limit := by
  have hroom := h.bounded.room
  simp only [step]
  by_cases hr : q.hasRoom
  · rcases acquireSlot_of_room h hr item with ⟨s', hs', -⟩
    rw [hs']
    unfold BoundedQueue.hasRoom at hr
    constructor
    · intro heq
      simp at heq
    · omega
  · rw [acquireSlot_of_full h hr]
    unfold BoundedQueue.hasRoom at hr
    exact iff_of_true rfl (by omega)

theorem empty_iff (h : Represents s q) :
    step s .tryDequeue = some (s, .empty) ↔ q.items.length = q.reserved := by
  have hitems := h.bounded.items
  simp only [step]
  by_cases hi : q.hasItem
  · rcases acquireItem_of_item h hi with ⟨s', hs', -⟩
    rw [hs']
    unfold BoundedQueue.hasItem at hi
    constructor
    · intro heq
      simp at heq
    · omega
  · rw [acquireItem_of_none h hi]
    unfold BoundedQueue.hasItem at hi
    exact iff_of_true rfl (by omega)

theorem capacity_step (h : Represents s q) {op : QueueOp Bytes} {r : QueueResult Bytes}
    (hs : step s op = some (s', r)) :
    s'.store.capacity = op.limitAfter q.limit q.items.length := by
  have hrel := bisimulates s q op h
  rw [hs] at hrel
  rcases hq : q.step op with _ | ⟨q', r'⟩
  · rw [hq] at hrel
    cases hrel
  · rw [hq] at hrel
    cases hrel with
    | some hrel => rw [hrel.1.capacity, BoundedQueue.limit_step h.bounded hq]

theorem represents_start (capacity : Nat) :
    ∃ s, newFileStore capacity [] = some s ∧ Represents s (.start capacity) := by
  have hempty : Entries.Holds itoa 0 ([] : List Bytes) [] := .nil
  rcases restart_eq capacity hempty with ⟨s, hs, hR⟩
  exact ⟨s, hs, by rwa [List.length_nil, Nat.max_zero] at hR⟩

/-- **The file store is a persistent bounded queue**: for every interleaving of its callers at lock
granularity, with restarts at any point and any capacity. -/
theorem fileStore_refines_queue {capacity : Nat} {ops : List (QueueOp Bytes)} {s₀ s : StoreSystem}
    {rs : List (QueueResult Bytes)} (hnew : newFileStore capacity [] = some s₀)
    (hrun : runAll step s₀ ops = some (s, rs)) : ServesAsQueue rs s := by
  rcases represents_start capacity with ⟨s₁, hs₁, hR₀⟩
  obtain rfl : s₁ = s₀ := by
    rw [hnew, Option.some.injEq] at hs₁
    exact hs₁.symm
  rcases bisimulates.run hR₀ hrun with ⟨q, hq, hR⟩
  rcases BoundedQueue.run_start hq with ⟨hconserved, hended⟩
  rcases hR.stored with ⟨lo, hstored⟩
  have hcontents := hstored.contents
  refine ⟨?_, hended, ?_, ?_, ?_, ?_, same_map_of_stored hstored, ?_, ?_⟩
  · rw [hcontents]
    exact hconserved
  · intro item
    rw [hcontents, hR.enqueuing, hR.capacity]
    exact full_iff hR item
  · rw [hcontents, hR.dequeuing, hR.waiting]
    exact empty_iff hR
  · simp only [step, hstored.peek, hcontents]
  · intro op s' r hs
    rw [hcontents, hR.capacity]
    exact capacity_step hR hs
  · intro e he
    rcases Entries.exists_of_mem_indexed (hstored.files.mem_iff.mp he) with ⟨n, -, -, hn⟩
    exact ⟨n, hn⟩
  · intro hne
    rcases hxs : q.items with _ | ⟨x, xs⟩
    · rw [hxs] at hstored
      exact absurd (List.eq_nil_of_length_eq_zero hstored.length) hne
    · rw [hxs] at hstored
      have hfront := hstored.frontIdx
      unfold FileStore.getFrontItemIndex at hfront
      rw [if_neg (fun hz => hne (List.eq_nil_of_length_eq_zero hz)),
        Option.map_eq_some_iff] at hfront
      rcases hfront with ⟨idx, hidx, -⟩
      exact ⟨_, idx, hidx⟩

/-- An empty store of capacity one. -/
def emptyStore : StoreSystem := ⟨⟨[], 0, 0, 1, ⟨1, 0⟩, ⟨1, 1⟩⟩, [], [], 0, 0⟩

/-- The second item outlives the process. -/
theorem fileStore_queue_restart :
    newFileStore 1 [] = some emptyStore ∧
      ∃ s rs, runAll step emptyStore [.tryEnqueue [1], .push 0, .restart 2, .tryEnqueue [2], .push 0,
          .dequeue, .take, .restart 1] = some (s, rs) ∧
        s.store.contents = [[2]] ∧ ServesAsQueue rs s := by
  have hnew : newFileStore 1 [] = some emptyStore := by decide
  have hrun : runAll step emptyStore [.tryEnqueue [1], .push 0, .restart 2, .tryEnqueue [2],
      .push 0, .dequeue, .take, .restart 1] =
      some (⟨⟨[(1, [2])], 1, 2, 1, ⟨1, 1⟩, ⟨1, 0⟩⟩, [(['1'], [2])], [], 0, 0⟩,
        [.reserved, .stored [1], .restarted, .reserved, .stored [2], .reserved, .removed [1],
          .restarted]) := by
    decide
  exact ⟨hnew, _, _, hrun, by decide, fileStore_refines_queue hnew hrun⟩

/-- After `WaitNonEmpty` a `TryDequeue` is refused although an item is stored, and an enqueue in
progress lets another one be refused on an empty store. -/
theorem fileStore_refuses_reserved :
    newFileStore 1 [] = some emptyStore ∧
      (runAll step emptyStore [.tryEnqueue [1], .push 0, .waitNonEmpty, .tryDequeue]).map
          (fun e => (e.1.store.contents, e.2)) =
        some ([[1]], [.reserved, .stored [1], .reserved, .empty]) ∧
      (runAll step emptyStore [.tryEnqueue [1], .tryEnqueue [2]]).map
          (fun e => (e.1.store.contents, e.2)) =
        some ([], [.reserved, .full]) := by
  decide

end StoreSystem

end Rdfm.Linux
