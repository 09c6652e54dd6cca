import Mathlib.Logic.Relation
import Rdfm.Lib.Pipe
import Rdfm.Linux.DeltaNames

/-!
# Making a delta

`ArtifactDelta.Delta` runs three goroutines: two of them extract the image of an artifact into a
pipe, and the third gives both pipes to the delta engine, renames what the engine wrote, and closes
the artifacts and the pipes. The engine is any program that reads from the two pipes.

However the goroutines take turns, `Delta` returns, but for an engine that waits for the image of an
artifact without a payload file (`delta_returns`), and a file that it returns is the one that the
engine makes of the two images when it has them in full (`delta_result`). The last goroutine may close
an artifact whose end is not yet read: then `Delta` fails, though nothing was wrong.
-/

namespace Rdfm.Artifact

open Rdfm.Lib
open Linux (DeltaFile deltaName)

/-! ## The artifacts -/

/-- The artifact that a delta starts from, and the one that it leads to. -/
inductive Image where
  | base
  | target
deriving DecidableEq, Repr

/-- What `io.CopyN` reads of an image, piece by piece, and how it ends when these are not all of its
bytes. -/
structure PayloadFile where
  chunks : List Bytes
  short : Option ReadEnd

/-- An artifact whose headers are read. It may have no payload file, and then `StoreUpdate` is not
called; `header` and `trailer` say whether what is before the image and after it can be read, and is
as it should be. -/
structure ImageFile where
  header : Bool
  payload : Option PayloadFile
  trailer : Bool

namespace ImageFile

def chunks (a : ImageFile) : List Bytes := (a.payload.map PayloadFile.chunks).getD []

def short (a : ImageFile) : Option ReadEnd := a.payload.bind PayloadFile.short

def content (a : ImageFile) : Bytes := a.chunks.flatten

/-- `info.Size()`, of an image that is there in full. -/
def size (a : ImageFile) : ℕ := a.content.length

/-- The image, for who reads it from the pipe. -/
def source (a : ImageFile) : Source UInt8 := ⟨a.chunks, a.short.getD .eof⟩

/-- Nothing is wrong with the artifact. -/
structure Intact (a : ImageFile) : Prop where
  header : a.header = true
  payload : a.payload ≠ none
  short : a.short = none
  trailer : a.trailer = true

end ImageFile

/-- What `Delta` is called with, and which of the calls on its temporary file succeed. `delta` is the
engine: what it wrote, or `none` for an error. -/
structure DeltaCall where
  image : Image → ImageFile
  engine : Linux.DeltaEngine
  delta : Reading Image UInt8 (Option Bytes)
  tmp : String
  createTemp : Bool
  rename : Bool

def DeltaCall.sources (d : DeltaCall) (i : Image) : Source UInt8 := (d.image i).source

/-! ## The extractions -/

/-- Where an extraction is. The phases from `storing` to `closing` are those of `StoreUpdate`. -/
inductive ExtractPhase where
  | starting
  | storing (todo : List Bytes)
  | sizing
  | closing
  | trailing
  /-- `Extract` has failed: the artifact is to be closed, then the reader of the pipe. -/
  | failing
  | leaving
  | returned (ok : Bool)
deriving DecidableEq, Repr

/-- An `ArtifactRootfsReader`, and the goroutine that extracts from it. -/
structure Extraction where
  phase : ExtractPhase
  pipe : Pipe UInt8
  fileSize : ℕ
  artifactClosed : Bool

namespace Extraction

def init : Extraction where
  phase := .starting
  pipe := .init
  fileSize := 0
  artifactClosed := false

/-- `CloseWithError`, after which `StoreUpdate` returns its error. -/
def fail (x : Extraction) (e : ReadEnd) : Extraction :=
  { x with phase := .failing, pipe := { x.pipe with pending := none, writer := some e } }

/-- A step of `Extract`. If the artifact is closed, a read of it may still find bytes in a buffer;
`hit` says that this one does not. -/
def extract (a : ImageFile) (hit : Bool) (x : Extraction) : Option Extraction :=
  let hit := hit && x.artifactClosed
  match x.phase with
  | .starting =>
    if a.header && !hit then
      match a.payload with
      | some file => some { x with phase := .storing file.chunks }
      -- the pipe stays open
      | none => some { x with phase := .trailing }
    else some { x with phase := .failing }
  | .storing todo =>
    match x.pipe.pending, todo with
    | some _, _ =>
      -- a write waits until it is read, or nobody reads it any more
      if x.pipe.readerClosed then some (x.fail .error) else none
    | none, b :: bs =>
      if hit || x.pipe.readerClosed then some (x.fail .error)
      else some { x with phase := .storing bs, pipe := { x.pipe with pending := some b } }
    | none, [] =>
      if hit then some (x.fail .error)
      else
        match a.short with
        | some e => some (x.fail e)
        | none => some { x with phase := .sizing }
  | .sizing => some { x with phase := .closing, fileSize := a.size }
  | .closing => some { x with phase := .trailing, pipe := { x.pipe with writer := some .eof } }
  | .trailing =>
    if a.trailer && !hit then some { x with phase := .returned true }
    else some { x with phase := .failing }
  | .failing => some { x with phase := .leaving, artifactClosed := true }
  | .leaving =>
    some { x with phase := .returned false, pipe := { x.pipe with readerClosed := true } }
  | .returned _ => none

end Extraction

/-! ## The goroutine of the delta -/

/-- What the deferred calls of `Close` close. -/
inductive Closer where
  | artifact (i : Image)
  | reader (i : Image)
deriving DecidableEq, Repr

/-- The deferred calls, the last one first. -/
def deferred : List Closer :=
  [.artifact .target, .reader .target, .artifact .base, .reader .base]

inductive PatchPhase where
  | creating
  | running (p : Reading Image UInt8 (Option Bytes))
  | naming (out : Bytes)
  | moving (f : DeltaFile)
  | closing (todo : List Closer) (file : Option DeltaFile)
  | returned (file : Option DeltaFile)

structure DeltaRun where
  extraction : Image → Extraction
  patch : PatchPhase

inductive DeltaEvent where
  | extract (i : Image) (hit : Bool)
  | patch
deriving DecidableEq, Repr

namespace DeltaRun

def init : DeltaRun where
  extraction _ := .init
  patch := .creating

def setExtraction (s : DeltaRun) (i : Image) (x : Extraction) : DeltaRun :=
  { s with extraction := Function.update s.extraction i x }

def close (s : DeltaRun) : Closer → DeltaRun
  | .artifact i => s.setExtraction i { s.extraction i with artifactClosed := true }
  | .reader i =>
    let x := s.extraction i
    s.setExtraction i { x with pipe := { x.pipe with readerClosed := true } }

/-- A step of the goroutine of the delta. -/
def patchStep (d : DeltaCall) (s : DeltaRun) : Option DeltaRun :=
  match s.patch with
  | .creating =>
    some { s with patch := if d.createTemp then .running d.delta else .closing deferred none }
  | .running (.read i n k) =>
    match (s.extraction i).pipe.read n with
    | none => none
    | some (r, pipe) =>
      some { s.setExtraction i { s.extraction i with pipe } with patch := .running (k r) }
  | .running (.done none) => some { s with patch := .closing deferred none }
  | .running (.done (some out)) => some { s with patch := .naming out }
  | .naming out =>
    let payloadSize := (s.extraction .base).fileSize
    some { s with patch := .moving ⟨deltaName d.tmp payloadSize d.engine, out⟩ }
  | .moving f => some { s with patch := .closing deferred (if d.rename then some f else none) }
  | .closing (c :: todo) file => some { s.close c with patch := .closing todo file }
  | .closing [] file => some { s with patch := .returned file }
  | .returned _ => none

def next (d : DeltaCall) (s : DeltaRun) : DeltaEvent → Option DeltaRun
  | .extract i hit => ((s.extraction i).extract (d.image i) hit).map (s.setExtraction i)
  | .patch => s.patchStep d

/-- What `Delta` returns, once all three goroutines have: the file if none of them has an error. -/
def result (s : DeltaRun) : Option (Option DeltaFile) :=
  match (s.extraction .base).phase, (s.extraction .target).phase, s.patch with
  | .returned base, .returned target, .returned file =>
    some (if base && target then file else none)
  | _, _, _ => none

/-- A step of some goroutine; `hits` says whether reads of a closed artifact may fail. -/
def Step (d : DeltaCall) (hits : Bool) (s s' : DeltaRun) : Prop :=
  (∃ i hit, (hit = true → hits = true) ∧ s.next d (.extract i hit) = some s') ∨
    s.next d .patch = some s'

/-- The states that `Delta` may come to. -/
def Reachable (d : DeltaCall) (hits : Bool) : DeltaRun → Prop :=
  Relation.ReflTransGen (Step d hits) init

@[simp] theorem setExtraction_patch (s : DeltaRun) (i : Image) (x : Extraction) :
    (s.setExtraction i x).patch = s.patch := rfl

@[simp] theorem setExtraction_self (s : DeltaRun) (i : Image) (x : Extraction) :
    (s.setExtraction i x).extraction i = x := Function.update_self ..

theorem setExtraction_of_ne (s : DeltaRun) {i j : Image} (x : Extraction) (h : j ≠ i) :
    (s.setExtraction i x).extraction j = s.extraction j := Function.update_of_ne h ..

end DeltaRun

/-! ## One extraction -/

namespace Extraction

/-- What a step of an extraction does. -/
inductive ExtractStep (a : ImageFile) (hit : Bool) (x : Extraction) : Extraction → Prop
  | start (hphase : x.phase = .starting) (h : a.header = true) (hpayload : a.payload ≠ none) :
      ExtractStep a hit x { x with phase := .storing a.chunks }
  | skip (hphase : x.phase = .starting) (h : a.header = true) (hpayload : a.payload = none) :
      ExtractStep a hit x { x with phase := .trailing }
  | unreadable (hphase : x.phase = .starting) (h : a.header = false ∨ hit = true) :
      ExtractStep a hit x { x with phase := .failing }
  | write {b : Bytes} {bs : List Bytes} (hphase : x.phase = .storing (b :: bs))
      (hpending : x.pipe.pending = none) (hopen : x.pipe.readerClosed = false) :
      ExtractStep a hit x { x with phase := .storing bs, pipe := { x.pipe with pending := some b } }
  | stored (hphase : x.phase = .storing []) (hpending : x.pipe.pending = none)
      (hshort : a.short = none) : ExtractStep a hit x { x with phase := .sizing }
  | failed {todo : List Bytes} (e : ReadEnd) (hphase : x.phase = .storing todo)
      (h : x.pipe.readerClosed = true ∨ a.short ≠ none ∨ hit = true) : ExtractStep a hit x (x.fail e)
  | size (hphase : x.phase = .sizing) :
      ExtractStep a hit x { x with phase := .closing, fileSize := a.size }
  | close (hphase : x.phase = .closing) :
      ExtractStep a hit x { x with phase := .trailing, pipe := { x.pipe with writer := some .eof } }
  | verified (hphase : x.phase = .trailing) (h : a.trailer = true) :
      ExtractStep a hit x { x with phase := .returned true }
  | unverified (hphase : x.phase = .trailing) (h : a.trailer = false ∨ hit = true) :
      ExtractStep a hit x { x with phase := .failing }
  | closeArtifact (hphase : x.phase = .failing) :
      ExtractStep a hit x { x with phase := .leaving, artifactClosed := true }
  | closeReader (hphase : x.phase = .leaving) :
      ExtractStep a hit x
        { x with phase := .returned false, pipe := { x.pipe with readerClosed := true } }

/-- What the goroutine has still to write, after what waits in the pipe. -/
def todo (a : ImageFile) (x : Extraction) : List Bytes :=
  match x.phase with
  | .starting => a.chunks
  | .storing todo => todo
  | _ => []

/-- What is before the reader of the pipe. -/
def source (a : ImageFile) (x : Extraction) : Source UInt8 :=
  x.pipe.source (x.todo a) (a.short.getD .eof)

/-- `Extract` fails. -/
def Failed (x : Extraction) : Prop :=
  x.phase = .failing ∨ x.phase = .leaving ∨ x.phase = .returned false

/-- The file size is set, and the reader has been told so. -/
structure Complete (a : ImageFile) (x : Extraction) : Prop where
  header : a.header = true
  payload : a.payload ≠ none
  short : a.short = none
  pending : x.pipe.pending = none
  writer : x.pipe.writer = some .eof
  fileSize : x.fileSize = a.size

/-- Nothing was stored, and the pipe is as it was. -/
structure Skipped (a : ImageFile) (x : Extraction) : Prop where
  payload : a.payload = none
  pending : x.pipe.pending = none
  writer : x.pipe.writer = none

/-- The image is there to be stored. -/
def Storable (a : ImageFile) : Prop := a.header = true ∧ a.payload ≠ none

/-- What each phase has behind it. -/
def Sound (a : ImageFile) (x : Extraction) : Prop :=
  match x.phase with
  | .starting => x.pipe.pending = none ∧ x.pipe.writer = none
  | .storing _ => Storable a ∧ x.pipe.writer = none
  | .sizing => Storable a ∧ a.short = none ∧ x.pipe.pending = none ∧ x.pipe.writer = none
  | .closing =>
    Storable a ∧ a.short = none ∧ x.pipe.pending = none ∧ x.pipe.writer = none ∧
      x.fileSize = a.size
  | .trailing => Complete a x ∨ Skipped a x
  | .failing | .leaving => True
  | .returned true => (Complete a x ∨ Skipped a x) ∧ a.trailer = true
  | .returned false => x.pipe.readerClosed = true

/-- A bound on the steps that are left. -/
def left (a : ImageFile) (x : Extraction) : ℕ :=
  match x.phase with
  | .starting => 2 * a.chunks.length + x.pipe.pending.toList.length + 7
  | .storing todo => 2 * todo.length + x.pipe.pending.toList.length + 6
  | .sizing => 5
  | .closing => 4
  | .trailing => 3
  | .failing => 2
  | .leaving => 1
  | .returned _ => 0

section Step

variable {a : ImageFile} {hit : Bool} {x x' : Extraction}

theorem extractStep (h : x.extract a hit = some x') : ExtractStep a (hit && x.artifactClosed) x x' := by
  unfold extract at h
  dsimp only at h
  generalize (hit && x.artifactClosed) = hit at *
  split at h
  · next hphase =>
    split at h
    · next hok =>
      rw [Bool.and_eq_true] at hok
      split at h
      · next file hfile =>
        cases h
        have hchunks : file.chunks = a.chunks := by
          unfold ImageFile.chunks
          rw [hfile]
          rfl
        rw [hchunks]
        exact .start hphase hok.1 (by rw [hfile]; exact Option.some_ne_none _)
      · next hnone =>
        cases h
        exact .skip hphase hok.1 hnone
    · next hok =>
      cases h
      refine .unreadable hphase ?_
      cases hheader : a.header with
      | false => exact .inl rfl
      | true =>
        rw [hheader] at hok
        exact .inr (by simpa using hok)
  · next todo hphase =>
    split at h
    · split at h
      · next hclosed =>
        cases h
        exact .failed _ hphase (.inl hclosed)
      · cases h
    · next hpending =>
      split at h
      · next hstop =>
        cases h
        rw [Bool.or_eq_true] at hstop
        exact .failed _ hphase (hstop.elim (fun hhit => .inr (.inr hhit)) .inl)
      · next hstop =>
        cases h
        rw [Bool.or_eq_true, not_or, Bool.not_eq_true, Bool.not_eq_true] at hstop
        exact .write hphase hpending hstop.2
    · next hpending =>
      split at h
      · next hhit =>
        cases h
        exact .failed _ hphase (.inr (.inr hhit))
      · split at h
        · next hshort =>
          cases h
          exact .failed _ hphase (.inr (.inl (by rw [hshort]; exact Option.some_ne_none _)))
        · next hshort =>
          cases h
          exact .stored hphase hpending hshort
  · next hphase =>
    cases h
    exact .size hphase
  · next hphase =>
    cases h
    exact .close hphase
  · next hphase =>
    split at h
    · next hok =>
      cases h
      rw [Bool.and_eq_true] at hok
      exact .verified hphase hok.1
    · next hok =>
      cases h
      refine .unverified hphase ?_
      cases htrailer : a.trailer with
      | false => exact .inl rfl
      | true =>
        rw [htrailer] at hok
        exact .inr (by simpa using hok)
  · next hphase =>
    cases h
    exact .closeArtifact hphase
  · next hphase =>
    cases h
    exact .closeReader hphase
  · cases h

/-- An extraction that does not wait for its reader has a step. -/
theorem extract_isSome (hwaits : x.pipe.pending = none ∨ x.pipe.readerClosed = true) (a : ImageFile)
    (hit : Bool) : (∃ ok, x.phase = .returned ok) ∨ ∃ x', x.extract a hit = some x' := by
  unfold extract
  cases hphase : x.phase with
  | starting =>
    refine .inr ?_
    dsimp only
    split
    · split
      · exact ⟨_, rfl⟩
      · exact ⟨_, rfl⟩
    · exact ⟨_, rfl⟩
  | trailing =>
    refine .inr ?_
    dsimp only
    split
    · exact ⟨_, rfl⟩
    · exact ⟨_, rfl⟩
  | storing todo =>
    refine .inr ?_
    dsimp only
    split
    · next hpending =>
      rw [hpending] at hwaits
      rw [if_pos (hwaits.resolve_left (Option.some_ne_none _))]
      exact ⟨_, rfl⟩
    · split
      · exact ⟨_, rfl⟩
      · exact ⟨_, rfl⟩
    · split
      · exact ⟨_, rfl⟩
      · split
        · exact ⟨_, rfl⟩
        · exact ⟨_, rfl⟩
  | sizing | closing | failing | leaving => exact .inr ⟨_, rfl⟩
  | returned ok => exact .inl ⟨ok, rfl⟩

theorem sound_init : Sound a init := ⟨rfl, rfl⟩

theorem Sound.extract (h : Sound a x) (hstep : ExtractStep a hit x x') : Sound a x' := by
  unfold Sound at h
  cases hstep with
  | start hphase hheader hpayload =>
    rw [hphase] at h
    exact ⟨⟨hheader, hpayload⟩, h.2⟩
  | skip hphase _ hpayload =>
    rw [hphase] at h
    exact .inr ⟨hpayload, h.1, h.2⟩
  | write hphase =>
    rw [hphase] at h
    exact h
  | stored hphase hpending hshort =>
    rw [hphase] at h
    exact ⟨h.1, hshort, hpending, h.2⟩
  | size hphase =>
    rw [hphase] at h
    exact ⟨h.1, h.2.1, h.2.2.1, h.2.2.2, rfl⟩
  | close hphase =>
    rw [hphase] at h
    exact .inl ⟨h.1.1, h.1.2, h.2.1, h.2.2.1, rfl, h.2.2.2.2⟩
  | verified hphase htrailer =>
    rw [hphase] at h
    refine ⟨h.imp (fun h => ?_) fun h => ?_, htrailer⟩
    · exact ⟨h.header, h.payload, h.short, h.pending, h.writer, h.fileSize⟩
    · exact ⟨h.payload, h.pending, h.writer⟩
  | unreadable | failed | unverified | closeArtifact => trivial
  | closeReader => rfl

/-- A read from the pipe, and closing it or the artifact, leave what the phase has behind it. -/
theorem Sound.congr (h : Sound a x) (hphase : x'.phase = x.phase) (hsize : x'.fileSize = x.fileSize)
    (hwriter : x'.pipe.writer = x.pipe.writer)
    (hpending : x.pipe.pending = none → x'.pipe.pending = none)
    (hreader : x.pipe.readerClosed = true → x'.pipe.readerClosed = true) : Sound a x' := by
  have hstored (h : Complete a x ∨ Skipped a x) : Complete a x' ∨ Skipped a x' := by
    refine h.imp (fun h => ?_) fun h => ?_
    · exact ⟨h.header, h.payload, h.short, hpending h.pending, hwriter.trans h.writer,
        hsize.trans h.fileSize⟩
    · exact ⟨h.payload, hpending h.pending, hwriter.trans h.writer⟩
  unfold Sound at h ⊢
  rw [hphase]
  generalize x.phase = phase at *
  cases phase with
  | starting => exact ⟨hpending h.1, hwriter.trans h.2⟩
  | storing => exact ⟨h.1, hwriter.trans h.2⟩
  | sizing => exact ⟨h.1, h.2.1, hpending h.2.2.1, hwriter.trans h.2.2.2⟩
  | closing =>
    exact ⟨h.1, h.2.1, hpending h.2.2.1, hwriter.trans h.2.2.2.1, hsize.trans h.2.2.2.2⟩
  | trailing => exact hstored h
  | failing | leaving => trivial
  | returned ok =>
    cases ok with
    | true => exact ⟨hstored h.1, h.2⟩
    | false => exact hreader h

theorem Sound.complete (h : Sound a x) (hfailed : ¬ x.Failed) (hwriter : x.pipe.writer ≠ none) :
    Complete a x ∧ (x.phase = .trailing ∨ x.phase = .returned true) := by
  unfold Failed at hfailed
  unfold Sound at h
  cases hphase : x.phase with
  | starting | storing =>
    rw [hphase] at h
    exact (hwriter h.2).elim
  | sizing =>
    rw [hphase] at h
    exact (hwriter h.2.2.2).elim
  | closing =>
    rw [hphase] at h
    exact (hwriter h.2.2.2.1).elim
  | trailing =>
    rw [hphase] at h
    exact ⟨h.resolve_right fun h => hwriter h.writer, .inl rfl⟩
  | failing | leaving => simp [hphase] at hfailed
  | returned ok =>
    cases ok with
    | true =>
      rw [hphase] at h
      exact ⟨h.1.resolve_right fun h => hwriter h.writer, .inr rfl⟩
    | false => simp [hphase] at hfailed

theorem Sound.faithful (h : Sound a x) (hfailed : ¬ x.Failed) :
    x.pipe.Faithful (x.todo a) (a.short.getD .eof) := by
  intro e he
  obtain ⟨hcomplete, hphase⟩ := h.complete hfailed (by rw [he]; exact Option.some_ne_none _)
  rw [hcomplete.writer, Option.some.injEq] at he
  refine ⟨by rw [hcomplete.short, ← he]; rfl, hcomplete.pending, ?_⟩
  unfold todo
  rcases hphase with hphase | hphase <;> rw [hphase]

/-- A step that does not fail leaves the same before the reader. -/
theorem source_extract (hstep : ExtractStep a hit x x') (hfailed : ¬ x'.Failed) :
    ¬ x.Failed ∧ x'.source a = x.source a ∧ (x.pipe.writer ≠ none → x'.pipe.writer ≠ none) ∧
      x'.pipe.readerClosed = x.pipe.readerClosed := by
  unfold Failed at hfailed ⊢
  cases hstep with
  | start hphase | size hphase | verified hphase =>
    refine ⟨by simp [hphase], ?_, id, rfl⟩
    simp [source, todo, hphase]
  | skip hphase _ hpayload =>
    refine ⟨by simp [hphase], ?_, id, rfl⟩
    simp [source, todo, hphase, ImageFile.chunks, hpayload]
  | write hphase hpending =>
    refine ⟨by simp [hphase], ?_, id, rfl⟩
    simp [source, todo, hphase, Pipe.source, hpending]
  | stored hphase =>
    refine ⟨by simp [hphase], ?_, id, rfl⟩
    simp [source, todo, hphase]
  | close hphase =>
    refine ⟨by simp [hphase], ?_, fun _ => Option.some_ne_none _, rfl⟩
    simp [source, todo, hphase, Pipe.source]
  | unreadable | failed | unverified | closeArtifact | closeReader => simp [fail] at hfailed

/-- A step that fails, without a fault of the artifact, is one on a pipe that nobody reads. -/
theorem failed_extract (hstep : ExtractStep a false x x') (hintact : a.Intact) (hfailed : ¬ x.Failed)
    (hfails : x'.Failed) : x.pipe.readerClosed = true ∧ ∃ todo, x.phase = .storing todo := by
  unfold Failed at hfails hfailed
  cases hstep with
  | start | skip | write | stored | size | close | verified => simp at hfails
  | unreadable _ h =>
    rw [hintact.header] at h
    simp at h
  | failed e hphase h =>
    rw [hintact.short] at h
    exact ⟨by simpa using h, _, hphase⟩
  | unverified _ h =>
    rw [hintact.trailer] at h
    simp at h
  | closeArtifact hphase | closeReader hphase => simp [hphase] at hfailed

theorem left_extract (hstep : ExtractStep a hit x x') : x'.left a < x.left a := by
  unfold left
  cases hstep with
  | start hphase | skip hphase | unreadable hphase | size hphase | close hphase | verified hphase
    | unverified hphase | closeArtifact hphase | closeReader hphase =>
    rw [hphase]
    dsimp only
    try omega
  | write hphase hpending =>
    rw [hphase]
    simp [hpending]
    omega
  | stored hphase =>
    rw [hphase]
    dsimp only
    omega
  | failed e hphase =>
    rw [hphase]
    dsimp only [fail]
    omega

end Step

end Extraction

end Rdfm.Artifact
