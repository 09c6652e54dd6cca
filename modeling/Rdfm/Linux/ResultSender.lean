import Rdfm.Linux.ActionRunner

/-!
# The result sender after a restart

The responder loop on a result store that may contain anything: results, but also blobs that a crash
has truncated, or that are not results at all. The loop takes a permit for each item, looks at the
front one, and goes on to the next round when it cannot decode it; the blob is not popped, so the
next round looks at it again. What the loop pops is always what it has just delivered, and it
delivers in order, but it never gets past a blob it cannot decode. So it delivers every stored result
exactly if no result is stored behind such a blob (`results_delivered_iff`).
-/

namespace Rdfm.Linux

open Rdfm.Lib

/-- The stored results, in order. -/
def ActionCodec.results (c : ActionCodec) (blobs : List Bytes) : List ActionResult :=
  blobs.filterMap c.newActionResult

/-- What the responder loop does next; `ok` is the answer of the callback, if the loop is there. -/
def ResponderPhase.event (ok : Bool) : ResponderPhase → RunnerEvent
  | .idle => .waitNonEmpty
  | .woken => .peek
  | .sending _ => .callback ok
  | .handed _ => .pop
  | .exited => .leaveResponderLoop

/-- The result that was delivered and is not popped yet. -/
def ResponderPhase.delivered : ResponderPhase → List ActionResult
  | .handed result => [result]
  | _ => []

namespace ActionRunner

section Loop

variable {Q : Type} (stepQ : Q → QueueOp Bytes → Option (Q × QueueResult Bytes)) (c : ActionCodec)

/-- One step of the responder loop. -/
def respond (s : ActionRunner Q) (ok : Bool) : ActionRunner Q :=
  s.step stepQ c (s.loops.responder.event ok)

/-- `startResponderLoop`, for as many steps as there are answers. -/
def startResponderLoop (s : ActionRunner Q) (oks : List Bool) : ActionRunner Q :=
  oks.foldl (respond stepQ c) s

end Loop

/-- `NewActionRunner` on the data directory of an earlier process. -/
def reloadActionRunner (queueSize : Nat) (actionMap : List String) (reqDir resDir : Dir) :
    Option (ActionRunner StoreSystem) := do
  let reqStore ← StoreSystem.newFileStore queueSize reqDir
  let resStore ← StoreSystem.newFileStore queueSize resDir
  return ⟨reqStore, resStore, ⟨true, false, actionMap, .idle, .idle, [], [], []⟩⟩

/-- What the loop makes of the stored blobs, whatever the callback answers. -/
structure Delivers (c : ActionCodec) (blobs : List Bytes) (s : ActionRunner StoreSystem) : Prop where
  inOrder : ∀ oks, (s.startResponderLoop StoreSystem.step c oks).loops.handed <+: c.results blobs
  /-- Each item that was popped decodes to the result that was delivered before it was popped. -/
  pops : ∀ oks, let s' := s.startResponderLoop StoreSystem.step c oks
    s'.loops.popped ++ s'.resStore.store.contents = blobs ∧
      s'.loops.popped.map c.newActionResult ++ s'.loops.responder.delivered.map some =
        s'.loops.handed.map some
  /-- A result takes at most four steps that are not failed callbacks. -/
  all : ∀ oks, 4 * (c.results blobs).length ≤ oks.count true →
    (s.startResponderLoop StoreSystem.step c oks).loops.handed = c.results blobs

/-- Behind a blob that cannot be decoded there is no result. -/
def NoneBehind (c : ActionCodec) (blobs : List Bytes) : Prop :=
  ∀ before blob after, blobs = before ++ blob :: after → c.newActionResult blob = none →
    c.results after = []

/-! ## Steps of the loop -/

section Queue

variable {c : ActionCodec} {blobs : List Bytes} {t t' : ActionRunner (BoundedQueue Bytes)} {ok : Bool}

/-- The items that the responder has a permit for, if none was lost. -/
def permits : ResponderPhase → Nat
  | .idle | .exited => 0
  | _ => 1

/-- What the loop and the store know of each other. A permit is lost only to a front blob that cannot
be decoded. -/
structure Sending (c : ActionCodec) (blobs : List Bytes) (t : ActionRunner (BoundedQueue Bytes)) :
    Prop where
  alive : t.loops.alive
  running : t.loops.responder ≠ .exited
  bounded : t.resStore.Bounded
  dequeuing : t.resStore.dequeuing = 0
  split : t.loops.popped ++ t.resStore.items = blobs
  decoded : t.loops.popped.map c.newActionResult ++ t.loops.responder.delivered.map some =
    t.loops.handed.map some
  front : ∀ result, current t.loops.responder = some result →
    ∃ blob, t.resStore.items.head? = some blob ∧ c.newActionResult blob = some result
  permits_le : permits t.loops.responder ≤ t.resStore.waiting
  lost : permits t.loops.responder = t.resStore.waiting ∨
    ∃ blob, t.resStore.items.head? = some blob ∧ c.newActionResult blob = none

/-- The steps of the loop, each with its effect. -/
inductive Responds (c : ActionCodec) (t : ActionRunner (BoundedQueue Bytes)) (ok : Bool) :
    ActionRunner (BoundedQueue Bytes) → Prop
  | waits (hphase : t.loops.responder = .idle)
      (hnone : t.resStore.items.length ≤ t.resStore.waiting) : Responds c t ok t
  | wakes (hphase : t.loops.responder = .idle)
      (hitem : t.resStore.waiting < t.resStore.items.length) :
      Responds c t ok { t with
        resStore := { t.resStore with waiting := t.resStore.waiting + 1 }
        loops := { t.loops with responder := .woken } }
  | skips (hphase : t.loops.responder = .woken) (blob : Bytes)
      (hfront : t.resStore.items.head? = some blob) (hblob : c.newActionResult blob = none) :
      Responds c t ok { t with loops := { t.loops with responder := .idle } }
  | opens (hphase : t.loops.responder = .woken) (blob : Bytes) (result : ActionResult)
      (hfront : t.resStore.items.head? = some blob) (hblob : c.newActionResult blob = some result) :
      Responds c t ok { t with loops := { t.loops with responder := .sending result } }
  | fails (result : ActionResult) (hphase : t.loops.responder = .sending result)
      (hok : ok = false) : Responds c t ok t
  | delivers (result : ActionResult) (hphase : t.loops.responder = .sending result)
      (hok : ok = true) :
      Responds c t ok { t with loops := { t.loops with
        responder := .handed result, handed := t.loops.handed ++ [result] } }
  | pops (result : ActionResult) (hphase : t.loops.responder = .handed result) (blob : Bytes)
      (rest : List Bytes) (hitems : t.resStore.items = blob :: rest) :
      Responds c t ok { t with
        resStore := { t.resStore with items := rest, waiting := t.resStore.waiting - 1 }
        loops := { t.loops with responder := .idle, popped := t.loops.popped ++ [blob] } }

theorem Sending.items_ne_nil (h : Sending c blobs t) (hbusy : permits t.loops.responder = 1) :
    ∃ blob rest, t.resStore.items = blob :: rest := by
  have hle := h.permits_le
  have hres := h.bounded.items
  unfold BoundedQueue.reserved at hres
  have hlength : 0 < t.resStore.items.length := by omega
  exact List.exists_cons_of_length_pos hlength

theorem Sending.responds (h : Sending c blobs t) (ok : Bool) :
    Responds c t ok (t.respond BoundedQueue.step c ok) := by
  unfold respond step
  rw [if_pos h.alive]
  cases hphase : t.loops.responder with
  | idle =>
    dsimp only [ResponderPhase.event, liveStep]
    rw [if_pos hphase]
    unfold onResults
    dsimp only [BoundedQueue.step]
    by_cases hitem : t.resStore.hasItem
    · rw [if_pos hitem]
      unfold BoundedQueue.hasItem BoundedQueue.reserved at hitem
      rw [h.dequeuing, Nat.zero_add] at hitem
      exact .wakes hphase hitem
    · rw [if_neg hitem]
      unfold BoundedQueue.hasItem BoundedQueue.reserved at hitem
      rw [h.dequeuing, Nat.zero_add] at hitem
      exact .waits hphase (by omega)
  | woken =>
    rcases h.items_ne_nil (by rw [hphase]; rfl) with ⟨blob, rest, hitems⟩
    have hfront : t.resStore.items.head? = some blob := by rw [hitems, List.head?_cons]
    dsimp only [ResponderPhase.event, liveStep]
    rw [if_pos hphase]
    unfold onResults
    dsimp only [BoundedQueue.step]
    rw [hfront]
    dsimp only [responderAfter]
    cases hblob : c.newActionResult blob with
    | none => exact .skips hphase blob hfront hblob
    | some result => exact .opens hphase blob result hfront hblob
  | sending result =>
    dsimp only [ResponderPhase.event, liveStep]
    rw [hphase]
    cases ok with
    | false => exact .fails result hphase rfl
    | true => exact .delivers result hphase rfl
  | handed result =>
    rcases h.items_ne_nil (by rw [hphase]; rfl) with ⟨blob, rest, hitems⟩
    have hle := h.permits_le
    rw [hphase] at hle
    have hwaiting : 0 < t.resStore.waiting := hle
    dsimp only [ResponderPhase.event, liveStep]
    rw [hphase]
    unfold onResults
    dsimp only [BoundedQueue.step]
    rw [if_pos hwaiting]
    unfold BoundedQueue.removeFront
    dsimp only
    rw [hitems]
    exact .pops result hphase blob rest hitems
  | exited => exact absurd hphase h.running

theorem Sending.step (h : Sending c blobs t) (hr : Responds c t ok t') : Sending c blobs t' := by
  have hroom := h.bounded.room
  have hres := h.bounded.items
  unfold BoundedQueue.reserved at hres
  have hsplit := h.split
  have hdecoded := h.decoded
  have hle := h.permits_le
  have hlost := h.lost
  cases hr with
  | waits | fails => exact h
  | wakes hphase hitem =>
    rw [hphase] at hdecoded hlost
    refine ⟨h.alive, nofun, ⟨hroom, ?_⟩, h.dequeuing, hsplit, hdecoded, nofun, ?_, ?_⟩
    · change t.resStore.dequeuing + (t.resStore.waiting + 1) ≤ t.resStore.items.length
      rw [h.dequeuing]
      omega
    · exact Nat.le_add_left _ _
    · rcases hlost with hnone | hbad
      · exact .inl (congrArg (· + 1) hnone)
      · exact .inr hbad
  | skips hphase blob hfront hblob =>
    rw [hphase] at hdecoded
    exact ⟨h.alive, nofun, h.bounded, h.dequeuing, hsplit, hdecoded, nofun, Nat.zero_le _,
      .inr ⟨blob, hfront, hblob⟩⟩
  | opens hphase blob result hfront hblob =>
    rw [hphase] at hdecoded hle hlost
    refine ⟨h.alive, nofun, h.bounded, h.dequeuing, hsplit, hdecoded, ?_, hle, hlost⟩
    intro result' hresult
    cases hresult
    exact ⟨blob, hfront, hblob⟩
  | delivers result hphase hok =>
    have hfront := h.front
    rw [hphase] at hdecoded hle hlost hfront
    refine ⟨h.alive, nofun, h.bounded, h.dequeuing, hsplit, ?_, ?_, hle, hlost⟩
    · dsimp only
      rw [List.map_append, ← hdecoded]
      simp [ResponderPhase.delivered]
    · intro result' hresult
      cases hresult
      exact hfront result rfl
  | pops result hphase blob rest hitems =>
    rcases h.front result (by rw [hphase]; rfl) with ⟨blob', hfront, hblob⟩
    rw [hitems, List.head?_cons, Option.some.injEq] at hfront
    subst hfront
    rw [hphase] at hdecoded hle hlost
    rw [hitems] at hsplit hroom hres hlost
    rw [List.length_cons] at hroom hres
    -- the front blob decodes, so no permit is lost
    have hwaiting : 1 = t.resStore.waiting := by
      rcases hlost with hnone | ⟨blob', hfront, hbad⟩
      · exact hnone
      · cases hfront
        rw [hblob] at hbad
        cases hbad
    refine ⟨h.alive, nofun, ⟨?_, ?_⟩, h.dequeuing, ?_, ?_, nofun, Nat.zero_le _, .inl ?_⟩
    · change rest.length + t.resStore.enqueuing.length ≤ t.resStore.limit
      omega
    · change t.resStore.dequeuing + (t.resStore.waiting - 1) ≤ rest.length
      omega
    · exact (List.append_assoc _ _ _).trans hsplit
    · dsimp only
      rw [← hdecoded]
      simp [ResponderPhase.delivered, hblob]
    · change 0 = t.resStore.waiting - 1
      omega

theorem Sending.loop (h : Sending c blobs t) (oks : List Bool) :
    Sending c blobs (t.startResponderLoop BoundedQueue.step c oks) := by
  induction oks generalizing t with
  | nil => exact h
  | cons ok oks ih => exact ih (h.step (h.responds ok))

/-! ## What is delivered -/

theorem results_append (xs ys : List Bytes) : c.results (xs ++ ys) = c.results xs ++ c.results ys :=
  List.filterMap_append

theorem results_cons_some {blob : Bytes} {result : ActionResult}
    (h : c.newActionResult blob = some result) (xs : List Bytes) :
    c.results (blob :: xs) = result :: c.results xs :=
  List.filterMap_cons_some h

theorem results_cons_none {blob : Bytes} (h : c.newActionResult blob = none) (xs : List Bytes) :
    c.results (blob :: xs) = c.results xs :=
  List.filterMap_cons_none h

theorem Sending.handed_eq (h : Sending c blobs t) :
    t.loops.handed = c.results t.loops.popped ++ t.loops.responder.delivered := by
  have hdecoded := congrArg (List.filterMap id) h.decoded
  rw [List.filterMap_append, List.filterMap_map, List.filterMap_map, List.filterMap_map] at hdecoded
  simp only [Function.id_comp, List.filterMap_some] at hdecoded
  exact hdecoded.symm

theorem Sending.popped_decodes (h : Sending c blobs t) {blob : Bytes} (hblob : blob ∈ t.loops.popped) :
    c.newActionResult blob ≠ none := by
  intro hnone
  have hmem : none ∈ t.loops.handed.map some := by
    rw [← h.decoded]
    exact List.mem_append_left _ (List.mem_map.mpr ⟨blob, hblob, hnone⟩)
  simp at hmem

/-- What is delivered and not popped is the first stored result. -/
theorem Sending.delivered_eq (h : Sending c blobs t) :
    t.loops.responder.delivered = [] ∨ ∃ blob rest result, t.resStore.items = blob :: rest ∧
      c.newActionResult blob = some result ∧ t.loops.responder.delivered = [result] := by
  cases hphase : t.loops.responder with
  | handed result =>
    rcases h.front result (by rw [hphase]; rfl) with ⟨blob, hfront, hblob⟩
    rcases List.head?_eq_some_iff.mp hfront with ⟨rest, hitems⟩
    exact .inr ⟨blob, rest, result, hitems, hblob, rfl⟩
  | idle | woken | sending | exited => exact .inl rfl

theorem Sending.handed_initial (h : Sending c blobs t) : t.loops.handed <+: c.results blobs := by
  rw [h.handed_eq, ← h.split, results_append]
  apply (List.prefix_append_right_inj _).mpr
  rcases h.delivered_eq with hnil | ⟨blob, rest, result, hitems, hblob, hone⟩
  · rw [hnil]
    exact List.nil_prefix
  · rw [hone, hitems, results_cons_some hblob]
    exact ⟨c.results rest, rfl⟩

/-- A blob that cannot be decoded stays in the store, and so does what is behind it. -/
theorem Sending.handed_before (h : Sending c blobs t) {before after : List Bytes} {blob : Bytes}
    (hblobs : blobs = before ++ blob :: after) (hbad : c.newActionResult blob = none) :
    t.loops.handed.length ≤ (c.results before).length := by
  have hmid : ∃ mid, before = t.loops.popped ++ mid ∧ t.resStore.items = mid ++ blob :: after := by
    rcases List.append_eq_append_iff.mp (h.split.trans hblobs) with ⟨mid, hbefore, hitems⟩ |
      ⟨more, hpopped, hafter⟩
    · exact ⟨mid, hbefore, hitems⟩
    · cases more with
      | nil =>
        rw [List.append_nil] at hpopped
        exact ⟨[], by rw [hpopped, List.append_nil], hafter.symm⟩
      | cons blob' more =>
        rw [List.cons_append, List.cons.injEq] at hafter
        have hmem : blob ∈ t.loops.popped := by
          rw [hpopped, hafter.1]
          simp
        exact absurd hbad (h.popped_decodes hmem)
  rcases hmid with ⟨mid, rfl, hmid⟩
  rw [h.handed_eq, results_append, List.length_append, List.length_append]
  apply Nat.add_le_add_left
  rcases h.delivered_eq with hnil | ⟨front, rest, result, hitems, hfront, hone⟩
  · rw [hnil]
    exact Nat.zero_le _
  · cases mid with
    | nil =>
      rw [hmid, List.nil_append, List.cons.injEq] at hitems
      rw [hitems.1, hfront] at hbad
      cases hbad
    | cons first mid =>
      rw [hmid, List.cons_append, List.cons.injEq] at hitems
      rw [hone, hitems.1, results_cons_some hfront, List.length_singleton, List.length_cons]
      exact Nat.le_add_left _ _

/-! ## Progress -/

/-- How far the loop is with its front item. -/
def progress : ResponderPhase → Nat
  | .idle | .exited => 0
  | .woken => 1
  | .sending _ => 2
  | .handed _ => 3

/-- The steps to the end of the last result that is stored. -/
def remaining (c : ActionCodec) (t : ActionRunner (BoundedQueue Bytes)) : Nat :=
  4 * (c.results t.resStore.items).length - progress t.loops.responder

theorem Sending.front_decodes (h : Sending c blobs t) (hnone : NoneBehind c blobs)
    (hleft : c.results t.resStore.items ≠ []) {blob : Bytes}
    (hfront : t.resStore.items.head? = some blob) : c.newActionResult blob ≠ none := by
  intro hbad
  rcases List.head?_eq_some_iff.mp hfront with ⟨rest, hitems⟩
  apply hleft
  rw [hitems, results_cons_none hbad]
  apply hnone t.loops.popped blob rest ?_ hbad
  rw [← h.split, hitems]

/-- Each step that is not a failed callback brings the loop on. -/
theorem Sending.remaining_step (h : Sending c blobs t) (hnone : NoneBehind c blobs)
    (hr : Responds c t ok t') : remaining c t' ≤ remaining c t - ok.toNat := by
  have hok : ok.toNat ≤ 1 := Bool.toNat_le ok
  by_cases hleft : c.results t.resStore.items = []
  · have hzero : c.results t'.resStore.items = [] := by
      cases hr with
      | waits | wakes | skips | opens | fails | delivers => exact hleft
      | pops result hphase blob rest hitems =>
        rw [hitems] at hleft
        exact (List.append_eq_nil_iff.mp ((results_append [blob] rest).symm.trans hleft)).2
    unfold remaining
    rw [hzero, List.length_nil, Nat.mul_zero, Nat.zero_sub]
    exact Nat.zero_le _
  · have hdecodes : ∀ {blob}, t.resStore.items.head? = some blob → c.newActionResult blob ≠ none :=
      h.front_decodes hnone hleft
    have hpos : 0 < (c.results t.resStore.items).length := List.length_pos_iff.mpr hleft
    have hpermits : permits t.loops.responder = t.resStore.waiting := by
      rcases h.lost with hpermits | ⟨blob, hfront, hbad⟩
      · exact hpermits
      · exact absurd hbad (hdecodes hfront)
    unfold remaining
    cases hr with
    | waits hphase hwaits =>
      rw [hphase] at hpermits
      have hempty : t.resStore.items = [] := by
        apply List.eq_nil_of_length_eq_zero
        have hzero : 0 = t.resStore.waiting := hpermits
        omega
      rw [hempty] at hleft
      exact absurd rfl hleft
    | wakes hphase hitem =>
      rw [hphase]
      dsimp only [progress]
      omega
    | skips hphase blob hfront hblob => exact absurd hblob (hdecodes hfront)
    | opens hphase blob result hfront hblob =>
      rw [hphase]
      dsimp only [progress]
      omega
    | fails result hphase hfails =>
      rw [hfails]
      exact Nat.le_refl _
    | delivers result hphase hdelivers =>
      rw [hphase]
      dsimp only [progress]
      omega
    | pops result hphase blob rest hitems =>
      have hfront : t.resStore.items.head? = some blob := by rw [hitems, List.head?_cons]
      rcases Option.ne_none_iff_exists'.mp (hdecodes hfront) with ⟨result', hblob⟩
      rw [hphase, hitems, results_cons_some hblob, List.length_cons]
      dsimp only [progress]
      omega

theorem Sending.remaining_loop (h : Sending c blobs t) (hnone : NoneBehind c blobs) (oks : List Bool) :
    remaining c (t.startResponderLoop BoundedQueue.step c oks) ≤ remaining c t - oks.count true := by
  induction oks generalizing t with
  | nil => exact Nat.le_refl _
  | cons ok oks ih =>
    have hr := h.responds ok
    have hrest := ih (h.step hr)
    have hone := h.remaining_step hnone hr
    have hcount : (ok :: oks).count true = oks.count true + ok.toNat := by
      cases ok <;> simp
    rw [hcount]
    change remaining c ((t.respond BoundedQueue.step c ok).startResponderLoop _ c oks) ≤ _
    omega

/-- At the end every result is delivered. -/
theorem Sending.handed_of_remaining (h : Sending c blobs t) (hzero : remaining c t = 0) :
    t.loops.handed = c.results blobs := by
  have hprogress : progress t.loops.responder ≤ 3 := by
    unfold progress
    split <;> decide
  unfold remaining at hzero
  have hleft : c.results t.resStore.items = [] := List.eq_nil_of_length_eq_zero (by omega)
  rw [h.handed_eq, ← h.split, results_append, hleft]
  rcases h.delivered_eq with hnil | ⟨blob, rest, result, hitems, hblob, -⟩
  · rw [hnil]
  · rw [hitems, results_cons_some hblob] at hleft
    cases hleft

end Queue

/-! ## The loop on the file store -/

variable {c : ActionCodec} {s : ActionRunner StoreSystem} {t : ActionRunner (BoundedQueue Bytes)}

theorem Related.respond (h : Related StoreSystem.Represents s t) (ok : Bool) :
    Related StoreSystem.Represents (s.respond StoreSystem.step c ok)
      (t.respond BoundedQueue.step c ok) := by
  unfold ActionRunner.respond
  rw [h.loops]
  exact h.step StoreSystem.bisimulates

theorem Related.loop (h : Related StoreSystem.Represents s t) (oks : List Bool) :
    Related StoreSystem.Represents (s.startResponderLoop StoreSystem.step c oks)
      (t.startResponderLoop BoundedQueue.step c oks) := by
  induction oks generalizing s t with
  | nil => exact h
  | cons ok oks ih => exact ih (h.respond ok)

theorem sending_reload (c : ActionCodec) (queueSize : Nat) (actionMap : List String)
    (requests results : List Bytes) :
    Sending c results ⟨⟨max queueSize requests.length, requests, [], 0, 0⟩,
      ⟨max queueSize results.length, results, [], 0, 0⟩,
      ⟨true, false, actionMap, .idle, .idle, [], [], []⟩⟩ :=
  ⟨rfl, nofun, ⟨Nat.le_max_right _ _, Nat.zero_le _⟩, rfl, rfl, rfl, nofun, Nat.zero_le _, .inl rfl⟩

theorem delivers_iff {blobs : List Bytes} (h : Related StoreSystem.Represents s t)
    (ht : Sending c blobs t) (hstart : remaining c t = 4 * (c.results blobs).length) :
    Delivers c blobs s ↔ NoneBehind c blobs := by
  have hloops (oks : List Bool) : (s.startResponderLoop StoreSystem.step c oks).loops =
      (t.startResponderLoop BoundedQueue.step c oks).loops := (h.loop oks).loops
  constructor
  · intro hdelivers before blob after hblobs hbad
    by_contra hafter
    have hall := hdelivers.all (List.replicate (4 * (c.results blobs).length) true)
      (by rw [List.count_replicate_self])
    have hbefore := (ht.loop (List.replicate (4 * (c.results blobs).length) true)).handed_before
      hblobs hbad
    rw [← hloops, hall, hblobs, results_append, results_cons_none hbad, List.length_append] at hbefore
    have hpos : 0 < (c.results after).length := List.length_pos_iff.mpr hafter
    omega
  · intro hnone
    refine ⟨fun oks => ?_, fun oks => ?_, fun oks hoks => ?_⟩
    · rw [hloops]
      exact (ht.loop oks).handed_initial
    · rcases (h.loop (c := c) oks).resStore.stored with ⟨lo, hstored⟩
      dsimp only
      rw [hstored.contents, hloops]
      exact ⟨(ht.loop oks).split, (ht.loop oks).decoded⟩
    · have hremaining := ht.remaining_loop hnone oks
      rw [hloops]
      apply (ht.loop oks).handed_of_remaining
      omega

/-- **The sender delivers every stored result, in order, and pops exactly what it has delivered, if
and only if no result is stored behind a blob that cannot be decoded.** -/
theorem results_delivered_iff (c : ActionCodec) (queueSize : Nat) (actionMap : List String)
    {reqDir resDir : Dir} {lo lo' : Nat} {requests blobs : List Bytes}
    (hreq : Entries.Holds itoa lo requests reqDir) (hres : Entries.Holds itoa lo' blobs resDir) :
    ∃ s, reloadActionRunner queueSize actionMap reqDir resDir = some s ∧
      (Delivers c blobs s ↔ NoneBehind c blobs) := by
  rcases StoreSystem.restart_eq queueSize hreq with ⟨reqStore, hreqNew, hreqR⟩
  rcases StoreSystem.restart_eq queueSize hres with ⟨resStore, hresNew, hresR⟩
  refine ⟨⟨reqStore, resStore, ⟨true, false, actionMap, .idle, .idle, [], [], []⟩⟩, ?_, ?_⟩
  · unfold reloadActionRunner
    rw [hreqNew, hresNew]
    rfl
  · exact delivers_iff (t := ⟨_, _, _⟩) ⟨hreqR, hresR, rfl⟩
      (sending_reload c queueSize actionMap requests blobs) rfl

/-! ## A truncated result -/

/-- The result of an update. -/
def updateResult : ActionResult := ⟨"e", 0, "ok"⟩

/-- A result store with one result and one blob that ends after its first byte. -/
def truncatedBehind : Dir := [(['0'], plainCodec.serializeResult updateResult), (['1'], [1])]

/-- The same blobs the other way round. -/
def truncatedFront : Dir := [(['0'], [1]), (['1'], plainCodec.serializeResult updateResult)]

/-- The runner that finds the blobs in the wrong order. -/
def stuckRunner : ActionRunner StoreSystem :=
  ⟨⟨⟨[], 0, 0, 4, ⟨4, 0⟩, ⟨4, 4⟩⟩, [], [], 0, 0⟩,
    ⟨⟨[(0, [1]), (1, plainCodec.serializeResult updateResult)], 0, 2, 4, ⟨4, 2⟩, ⟨4, 2⟩⟩,
      truncatedFront, [], 0, 0⟩,
    ⟨true, false, [], .idle, .idle, [], [], []⟩⟩

theorem holds_truncatedBehind :
    Entries.Holds itoa 0 [plainCodec.serializeResult updateResult, [1]] truncatedBehind := by
  have heq : Entries.indexed itoa 0 [plainCodec.serializeResult updateResult, [1]] =
      truncatedBehind := by decide
  unfold Entries.Holds
  rw [heq]

/-- A truncated blob behind a result does no harm. -/
theorem results_delivered_truncated :
    ∃ s, reloadActionRunner 4 [] [] truncatedBehind = some s ∧
      Delivers plainCodec [plainCodec.serializeResult updateResult, [1]] s := by
  have hempty : Entries.Holds itoa 0 ([] : List Bytes) [] := .nil
  rcases results_delivered_iff plainCodec 4 [] hempty holds_truncatedBehind with ⟨s, hs, hiff⟩
  refine ⟨s, hs, hiff.mpr ?_⟩
  intro before blob after hblobs hbad
  cases before with
  | nil =>
    rw [List.nil_append, List.cons.injEq] at hblobs
    rw [← hblobs.1, plainCodec.result_roundTrip] at hbad
    cases hbad
  | cons first before =>
    rw [List.cons_append, List.cons.injEq] at hblobs
    cases before with
    | nil =>
      rw [List.nil_append, List.cons.injEq] at hblobs
      rw [← hblobs.2.2]
      rfl
    | cons second before =>
      rw [List.cons_append, List.cons.injEq] at hblobs
      exact absurd hblobs.2.2.symm (by simp)

/-- A truncated blob in front of a result keeps it from ever being delivered. -/
theorem results_stuck_behind_truncated :
    ∃ s, reloadActionRunner 4 [] [] truncatedFront = some s ∧
      (s.startResponderLoop StoreSystem.step plainCodec (List.replicate 12 true)).loops.handed = [] ∧
      (s.startResponderLoop StoreSystem.step plainCodec
        (List.replicate 12 true)).resStore.store.contents =
          [[1], plainCodec.serializeResult updateResult] ∧
      ¬ Delivers plainCodec [[1], plainCodec.serializeResult updateResult] s := by
  have hstuck :
      (stuckRunner.startResponderLoop StoreSystem.step plainCodec (List.replicate 12 true)).loops.handed
        = [] := by
    decide +kernel
  refine ⟨stuckRunner, by decide, hstuck, by decide +kernel, fun hdelivers => ?_⟩
  have hall := hdelivers.all (List.replicate 12 true) (by decide)
  rw [hstuck] at hall
  have hresults : plainCodec.results [[1], plainCodec.serializeResult updateResult] =
      [updateResult] := by
    unfold ActionCodec.results
    rw [List.filterMap_cons_none rfl, List.filterMap_cons_some (plainCodec.result_roundTrip _)]
    rfl
  rw [hresults] at hall
  cases hall

end ActionRunner

end Rdfm.Linux
