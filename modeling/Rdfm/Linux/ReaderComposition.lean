import Rdfm.Linux.CachedFetcher

/-!
# Composition of readers

`ReadSaver`, `CombinedSourceReader` and `TeeReadCloser`, over readers of which nothing is known but
what they deliver: in chunks of any size, also empty ones, and with `io.EOF` after the last chunk or
along with it. The stream of `FetchAndCacheUpdateFromURI` is one of two stacks of them
(`read_created`, `read_resumed`).
-/

namespace Rdfm.Linux

open Rdfm.Lib

/-! ## Readers -/

/-- `Read` into a buffer of so many bytes. -/
abbrev ReadFn (σ : Type*) := Nat → σ → Bytes × ReadEnd × σ

section Readers

variable {σ : Type*} (read : ReadFn σ)

/-- Reads into buffers of these sizes, up to the first that ends the stream. -/
def readUntilEnd : List Nat → σ → Bytes × ReadEnd × σ
  | [], s => ([], .ok, s)
  | m :: sizes, s =>
    match read m s with
    | (data, .ok, s) =>
      match readUntilEnd sizes s with
      | (more, e, s) => (data ++ more, e, s)
    | (data, e, s) => (data, e, s)

/-- Reads into buffers of these sizes, whatever comes. -/
def readEach : List Nat → σ → Bytes × σ
  | [], s => ([], s)
  | m :: sizes, s =>
    match read m s with
    | (data, _, s) =>
      match readEach sizes s with
      | (more, s) => (data ++ more, s)

/-- For all buffer sizes: no error comes, what is read is the beginning of the bytes, and is all of
them when `io.EOF` comes. -/
def Delivers (bytes : Bytes) (s : σ) : Prop :=
  ∀ sizes, (readUntilEnd read sizes s).1 <+: bytes ∧ (readUntilEnd read sizes s).2.1 ≠ .error ∧
    ((readUntilEnd read sizes s).2.1 = .eof → (readUntilEnd read sizes s).1 = bytes)

/-- Reads into buffers of these sizes come to an end. -/
def EndsWith (sizes : Nat → Nat) (s : σ) : Prop :=
  ∃ n, (readUntilEnd read ((List.range n).map sizes) s).2.1 ≠ .ok

/-- Reads into buffers that are not empty come to an end. -/
def Ends (s : σ) : Prop := ∀ sizes : Nat → Nat, (∀ i, 0 < sizes i) → EndsWith read sizes s

end Readers

/-! ## The three wrappers -/

structure ReadSaver where
  data : Bytes
  offset : Nat
deriving DecidableEq, Repr

namespace ReadSaver

def write (p : Bytes) (u : ReadSaver) : ReadSaver := { u with data := u.data ++ p }

def read : ReadFn ReadSaver := fun m u =>
  if u.offset ≥ u.data.length then ([], .eof, u)
  else
    let n := if m ≤ u.data.length - u.offset then m else u.data.length - u.offset
    ((u.data.drop u.offset).take n, .ok, { u with offset := u.offset + n })

/-- What was written and not yet read. -/
def unread (u : ReadSaver) : Bytes := u.data.drop u.offset

end ReadSaver

structure CombinedSourceReader (σ τ : Type*) where
  firstReader : σ
  firstReaderEOF : Bool
  secondReader : τ

def CombinedSourceReader.read {σ τ : Type*} (first : ReadFn σ) (second : ReadFn τ) :
    ReadFn (CombinedSourceReader σ τ) := fun m c =>
  if !c.firstReaderEOF then
    match first m c.firstReader with
    | (data, e, firstReader) => (data, .ok, { c with firstReader, firstReaderEOF := e = .eof })
  else
    match second m c.secondReader with
    | (data, e, secondReader) => (data, e, { c with secondReader })

/-- The writer is what it was given so far. -/
structure TeeReadCloser (σ : Type*) where
  reader : σ
  writer : Bytes

def TeeReadCloser.read {σ : Type*} (source : ReadFn σ) : ReadFn (TeeReadCloser σ) := fun m t =>
  match source m t.reader with
  | (data, e, reader) => (data, e, ⟨reader, t.writer ++ data⟩)

/-! ## Deliveries step by step -/

section Readers

variable {σ : Type*} {read : ReadFn σ} {bytes data : Bytes} {s s' : σ} {e : ReadEnd} {m : Nat}

theorem readUntilEnd_cons_ok (h : read m s = (data, .ok, s')) (sizes : List Nat) :
    readUntilEnd read (m :: sizes) s =
      (data ++ (readUntilEnd read sizes s').1, (readUntilEnd read sizes s').2) := by
  rw [readUntilEnd, h]

theorem readUntilEnd_cons_end (h : read m s = (data, e, s')) (he : e ≠ .ok) (sizes : List Nat) :
    readUntilEnd read (m :: sizes) s = (data, e, s') := by
  rw [readUntilEnd, h]
  cases e with
  | ok => exact absurd rfl he
  | eof | error => rfl

/-- One read of a reader that delivers. -/
theorem Delivers.next (h : Delivers read bytes s) (hread : read m s = (data, e, s')) :
    ∃ rest, bytes = data ++ rest ∧ e ≠ .error ∧ (e = .eof → rest = []) ∧
      (e = .ok → Delivers read rest s') := by
  by_cases hok : e = .ok
  · subst hok
    have hcons (sizes : List Nat) := h (m :: sizes)
    simp only [readUntilEnd_cons_ok hread] at hcons
    obtain ⟨⟨rest, hrest⟩, -, -⟩ := hcons []
    have hbytes : bytes = data ++ rest := by
      rw [← hrest, readUntilEnd, List.append_nil]
    subst hbytes
    refine ⟨rest, rfl, nofun, nofun, fun _ sizes => ?_⟩
    obtain ⟨hfront, herror, heof⟩ := hcons sizes
    exact ⟨(List.prefix_append_right_inj data).mp hfront, herror,
      fun he => List.append_cancel_left (heof he)⟩
  · have hend := h [m]
    rw [readUntilEnd_cons_end hread hok] at hend
    obtain ⟨⟨rest, rfl⟩, herror, heof⟩ := hend
    exact ⟨rest, rfl, herror, fun he => by simpa using heof he, fun h => absurd h hok⟩

/-- A reader delivers what is left according to a relation that each of its reads keeps. -/
theorem Delivers.of_step {P : Bytes → σ → Prop}
    (hstep : ∀ bytes s m data e s', P bytes s → read m s = (data, e, s') →
      ∃ rest, bytes = data ++ rest ∧ e ≠ .error ∧ (e = .eof → rest = []) ∧ (e = .ok → P rest s'))
    (h : P bytes s) : Delivers read bytes s := by
  intro sizes
  induction sizes generalizing bytes s with
  | nil => exact ⟨List.nil_prefix, nofun, nofun⟩
  | cons m sizes ih =>
    cases hread : read m s with
    | mk data rest =>
      rcases rest with ⟨e, s'⟩
      obtain ⟨rest, rfl, herror, heof, hok⟩ := hstep bytes s m data e s' h hread
      by_cases he : e = .ok
      · subst he
        rw [readUntilEnd_cons_ok hread]
        obtain ⟨hfront, herror, heof⟩ := ih (hok rfl)
        exact ⟨(List.prefix_append_right_inj data).mpr hfront, herror,
          fun he => congrArg (data ++ ·) (heof he)⟩
      · rw [readUntilEnd_cons_end hread he]
        refine ⟨List.prefix_append data rest, herror, fun he => ?_⟩
        rw [heof he, List.append_nil]

section Ends

variable {sizes : Nat → Nat}

theorem endsWith_of_end (h : read (sizes 0) s = (data, e, s')) (he : e ≠ .ok) :
    EndsWith read sizes s := by
  refine ⟨1, ?_⟩
  rw [List.range_one, List.map_singleton, readUntilEnd_cons_end h he]
  exact he

theorem endsWith_of_ok (h : read (sizes 0) s = (data, .ok, s'))
    (hrest : EndsWith read (fun i => sizes (i + 1)) s') : EndsWith read sizes s := by
  obtain ⟨n, hn⟩ := hrest
  refine ⟨n + 1, ?_⟩
  rw [List.range_succ_eq_map, List.map_cons, List.map_map, readUntilEnd_cons_ok h]
  exact hn

end Ends

end Readers

/-! ## The switch to the second reader -/

namespace CombinedSourceReader

variable {σ τ : Type*} {first : ReadFn σ} {second : ReadFn τ} {a b : Bytes} {s : σ} {t : τ}

/-- What is left, before the switch and after it. -/
inductive Left (first : ReadFn σ) (second : ReadFn τ) : Bytes → CombinedSourceReader σ τ → Prop where
  | both {a b : Bytes} {s : σ} {t : τ} (ha : Delivers first a s) (hb : Delivers second b t) :
    Left first second (a ++ b) ⟨s, false, t⟩
  | second {b : Bytes} {s : σ} {t : τ} (hb : Delivers second b t) : Left first second b ⟨s, true, t⟩

theorem delivers (ha : Delivers first a s) (hb : Delivers second b t) :
    Delivers (read first second) (a ++ b) ⟨s, false, t⟩ := by
  refine .of_step (P := Left first second) ?_ (.both ha hb)
  intro bytes c m data e c' hleft hread
  cases hleft with
  | @both a b s t ha hb =>
    cases hfirst : first m s with
    | mk data₁ rest =>
      rcases rest with ⟨e₁, s'⟩
      obtain ⟨rest, rfl, herror, heof, hok⟩ := ha.next hfirst
      simp only [read, hfirst, Bool.not_false, if_true] at hread
      cases hread
      refine ⟨rest ++ b, List.append_assoc .., nofun, nofun, fun _ => ?_⟩
      -- The flag is set exactly if the end of the first reader has come, with data or without.
      cases e₁ with
      | ok => exact .both (hok rfl) hb
      | eof =>
        rw [heof rfl]
        exact .second hb
      | error => exact absurd rfl herror
  | @second b s t hb =>
    cases hsecond : second m t with
    | mk data₂ rest =>
      rcases rest with ⟨e₂, t'⟩
      obtain ⟨rest, rfl, herror, heof, hok⟩ := hb.next hsecond
      simp only [read, hsecond, Bool.not_true, Bool.false_eq_true, if_false] at hread
      cases hread
      exact ⟨rest, rfl, herror, heof, fun he => .second (hok he)⟩

/-- After the switch, the second reader alone counts. -/
theorem endsWith_second {sizes : Nat → Nat} (h : EndsWith second sizes t) :
    EndsWith (read first second) sizes ⟨s, true, t⟩ := by
  obtain ⟨n, hn⟩ := h
  induction n generalizing sizes t with
  | zero => exact absurd rfl hn
  | succ n ih =>
    rw [List.range_succ_eq_map, List.map_cons, List.map_map] at hn
    cases hsecond : second (sizes 0) t with
    | mk data rest =>
      rcases rest with ⟨e, t'⟩
      have hread : read first second (sizes 0) ⟨s, true, t⟩ = (data, e, ⟨s, true, t'⟩) := by
        simp only [read, hsecond, Bool.not_true, Bool.false_eq_true, if_false]
      by_cases he : e = .ok
      · subst he
        rw [readUntilEnd_cons_ok hsecond] at hn
        exact endsWith_of_ok hread (ih hn)
      · exact endsWith_of_end hread he

theorem ends (ha : Delivers first a s) (hs : Ends first s) (ht : Ends second t) :
    Ends (read first second) ⟨s, false, t⟩ := by
  intro sizes hpos
  obtain ⟨n, hn⟩ := hs sizes hpos
  clear hs
  induction n generalizing sizes s a with
  | zero => exact absurd rfl hn
  | succ n ih =>
    rw [List.range_succ_eq_map, List.map_cons, List.map_map] at hn
    cases hfirst : first (sizes 0) s with
    | mk data rest =>
      rcases rest with ⟨e, s'⟩
      obtain ⟨rest, -, herror, -, hok⟩ := ha.next hfirst
      have hread : read first second (sizes 0) ⟨s, false, t⟩ =
          (data, .ok, ⟨s', decide (e = .eof), t⟩) := by
        simp only [read, hfirst, Bool.not_false, if_true]
      have hpos' (i : Nat) : 0 < sizes (i + 1) := hpos (i + 1)
      refine endsWith_of_ok hread ?_
      cases e with
      | ok =>
        rw [readUntilEnd_cons_ok hfirst] at hn
        exact ih (hok rfl) _ hpos' hn
      | eof => exact endsWith_second (ht _ hpos')
      | error => exact absurd rfl herror

end CombinedSourceReader

/-! ## The saver -/

/-- A call of a `ReadSaver`. -/
inductive SaverCall where
  | write (p : Bytes)
  | read (m : Nat)
deriving DecidableEq, Repr

namespace ReadSaver

/-- The saver after a call, and what the call returns. -/
def call (u : ReadSaver) : SaverCall → Bytes × ReadSaver
  | .write p => ([], u.write p)
  | .read m => ((u.read m).1, (u.read m).2.2)

/-- What a sequence of calls returns, one after the other, and the saver after it. -/
def calls : List SaverCall → ReadSaver → Bytes × ReadSaver
  | [], u => ([], u)
  | c :: cs, u => ((u.call c).1 ++ (calls cs (u.call c).2).1, (calls cs (u.call c).2).2)

/-- What a sequence of calls writes. -/
def written (cs : List SaverCall) : Bytes :=
  cs.flatMap fun
    | .write p => p
    | .read _ => []

variable {u u' : ReadSaver} {m : Nat} {data : Bytes} {e : ReadEnd}

/-- A read takes the first bytes that are unread; only at the end there are none. -/
theorem read_eq (u : ReadSaver) (m : Nat) :
    u.read m = if u.unread = [] then ([], .eof, u)
      else (u.unread.take m, .ok, { u with offset := u.offset + min m u.unread.length }) := by
  have hlength : u.unread.length = u.data.length - u.offset := List.length_drop
  unfold read
  by_cases hend : u.offset ≥ u.data.length
  · have hunread : u.unread = [] := List.drop_eq_nil_of_le hend
    rw [if_pos hend, if_pos hunread]
  · have hunread : u.unread ≠ [] := by
      intro h
      rw [h, List.length_nil] at hlength
      omega
    have hmin : (if m ≤ u.data.length - u.offset then m else u.data.length - u.offset) =
        min m u.unread.length := by
      rw [hlength]
      split <;> omega
    rw [if_neg hend, if_neg hunread]
    dsimp only
    rw [hmin]
    refine Prod.ext ?_ rfl
    change u.unread.take _ = _
    rw [List.take_eq_take_iff]
    omega

/-- All that a read does. -/
theorem read_cases (h : u.read m = (data, e, u')) :
    u.unread = data ++ u'.unread ∧
      (u.unread = [] ∧ e = .eof ∧ u' = u ∨
        u.unread ≠ [] ∧ e = .ok ∧ data.length = min m u.unread.length ∧ u'.data = u.data ∧
          u'.offset = u.offset + data.length) := by
  rw [read_eq] at h
  split at h
  · next hunread =>
    cases h
    exact ⟨rfl, .inl ⟨hunread, rfl, rfl⟩⟩
  · next hunread =>
    cases h
    refine ⟨?_, .inr ⟨hunread, rfl, List.length_take, rfl, by rw [List.length_take]⟩⟩
    change u.unread = u.unread.take m ++ u.data.drop (u.offset + min m u.unread.length)
    rw [← List.drop_drop]
    change u.unread = u.unread.take m ++ u.unread.drop (min m u.unread.length)
    rcases Nat.le_total m u.unread.length with hm | hm
    · rw [Nat.min_eq_left hm, List.take_append_drop]
    · rw [Nat.min_eq_right hm, List.take_of_length_le hm, List.drop_length, List.append_nil]

theorem unread_write (h : u.offset ≤ u.data.length) (p : Bytes) :
    (u.write p).unread = u.unread ++ p := List.drop_append_of_le_length h

/-- Whatever the order of writes and reads: what was returned and what is unread is what was unread
and what was written, in order. -/
theorem calls_spec (h : u.offset ≤ u.data.length) (cs : List SaverCall) :
    (calls cs u).1 ++ (calls cs u).2.unread = u.unread ++ written cs := by
  induction cs generalizing u with
  | nil => exact (List.append_nil _).symm
  | cons c cs ih =>
    unfold calls written
    rw [List.flatMap_cons]
    cases c with
    | write p =>
      have hbound : (u.write p).offset ≤ (u.write p).data.length := by
        unfold write
        rw [List.length_append]
        exact Nat.le_add_right_of_le h
      dsimp only [call]
      rw [List.nil_append, ih hbound, unread_write h, List.append_assoc]
      rfl
    | read m =>
      cases hread : u.read m with
      | mk data rest =>
        rcases rest with ⟨e, u'⟩
        obtain ⟨hunread, hcases⟩ := read_cases hread
        have hbound : u'.offset ≤ u'.data.length := by
          rcases hcases with ⟨-, -, rfl⟩ | ⟨-, -, hlength, hdata, hoffset⟩
          · exact h
          · have hle : u.unread.length = u.data.length - u.offset := List.length_drop
            rw [hdata, hoffset]
            omega
        dsimp only [call]
        rw [hread, List.append_assoc, ih hbound, ← List.append_assoc, ← hunread]
        rfl

theorem delivers (u : ReadSaver) : Delivers ReadSaver.read u.unread u := by
  refine .of_step (P := fun bytes u => bytes = u.unread) ?_ rfl
  rintro _ u m data e u' rfl hread
  obtain ⟨hunread, hcases⟩ := read_cases hread
  refine ⟨u'.unread, hunread, ?_, ?_, fun _ => rfl⟩
  · rcases hcases with ⟨-, rfl, -⟩ | ⟨-, rfl, -⟩ <;> exact nofun
  · rintro rfl
    rcases hcases with ⟨hnil, -, rfl⟩ | ⟨-, he, -⟩
    · exact hnil
    · cases he

theorem ends (u : ReadSaver) : Ends ReadSaver.read u := by
  intro sizes hpos
  induction hn : u.unread.length using Nat.strongRecOn generalizing u sizes with
  | ind n ih =>
    cases hread : u.read (sizes 0) with
    | mk data rest =>
      rcases rest with ⟨e, u'⟩
      obtain ⟨hunread, ⟨-, rfl, -⟩ | ⟨hne, rfl, hlength, -⟩⟩ := read_cases hread
      · exact endsWith_of_end hread nofun
      · have hdecreases : u'.unread.length < n := by
          have hsplit := congrArg List.length hunread
          have hpos₀ := hpos 0
          have hlen := List.length_pos_iff.mpr hne
          rw [List.length_append] at hsplit
          omega
        exact endsWith_of_ok hread (ih _ hdecreases u' _ (fun i => hpos (i + 1)) rfl)

end ReadSaver

/-! ## The tee -/

namespace TeeReadCloser

variable {σ : Type*} {source : ReadFn σ}

/-- After every read, whatever has come: the writer has got what was returned, and nothing else is
different from the reads of the source. -/
theorem readEach_eq (sizes : List Nat) (t : TeeReadCloser σ) :
    readEach (read source) sizes t =
      ((readEach source sizes t.reader).1,
        ⟨(readEach source sizes t.reader).2, t.writer ++ (readEach source sizes t.reader).1⟩) := by
  induction sizes generalizing t with
  | nil => simp [readEach]
  | cons m sizes ih =>
    simp only [readEach, read, ih, List.append_assoc]

end TeeReadCloser

/-- **Composition of readers.** A `CombinedSourceReader` of readers that deliver `a` and `b` delivers
`a` and then `b`, and comes to an end if they do. A `ReadSaver` returns what is written to it in order,
each byte once, whatever the order of writes and reads, and delivers the rest. The writer of a
`TeeReadCloser` has got exactly what was returned, after every number of reads of any source. -/
theorem reader_composition {σ τ υ : Type*} (first : ReadFn σ) (second : ReadFn τ) (s : σ) (t : τ)
    (a b : Bytes) (hfirst : Delivers first a s) (hsecond : Delivers second b t)
    (calls : List SaverCall) (source : ReadFn υ) (tee : TeeReadCloser υ) (sizes : List Nat) :
    (Delivers (CombinedSourceReader.read first second) (a ++ b) ⟨s, false, t⟩ ∧
      (Ends first s → Ends second t →
        Ends (CombinedSourceReader.read first second) ⟨s, false, t⟩)) ∧
    (∃ returned u, ReadSaver.calls calls ⟨[], 0⟩ = (returned, u) ∧
      returned ++ u.unread = ReadSaver.written calls ∧
      Delivers ReadSaver.read u.unread u ∧ Ends ReadSaver.read u) ∧
    ∃ returned reader, readEach source sizes tee.reader = (returned, reader) ∧
      readEach (TeeReadCloser.read source) sizes tee =
        (returned, ⟨reader, tee.writer ++ returned⟩) := by
  refine ⟨⟨CombinedSourceReader.delivers hfirst hsecond, fun hs ht =>
    CombinedSourceReader.ends hfirst hs ht⟩, ⟨_, _, rfl, ?_, ReadSaver.delivers _, ReadSaver.ends _⟩,
    _, _, rfl, TeeReadCloser.readEach_eq sizes tee⟩
  exact ReadSaver.calls_spec (u := ⟨[], 0⟩) (Nat.le_refl 0) calls

/-- Two savers, one after the other. -/
theorem reader_composition_savers :
    Delivers (CombinedSourceReader.read ReadSaver.read ReadSaver.read) [1, 2, 3]
        ⟨⟨[1, 2], 0⟩, false, ⟨[3], 0⟩⟩ ∧
      (readUntilEnd (CombinedSourceReader.read ReadSaver.read ReadSaver.read) [1, 0, 4, 4, 4, 4]
        ⟨⟨[1, 2], 0⟩, false, ⟨[3], 0⟩⟩).1 = [1, 2, 3] :=
  ⟨(reader_composition ReadSaver.read ReadSaver.read ⟨[1, 2], 0⟩ ⟨[3], 0⟩ [1, 2] [3]
    (ReadSaver.delivers _) (ReadSaver.delivers _) [] ReadSaver.read ⟨⟨[], 0⟩, []⟩ []).1.1, by decide⟩

/-! ## The stacks of the update stream -/

section Stacks

variable {net : Net} {retryCount : Nat} {artifact data : Bytes} {m : Nat} {e : ReadEnd}

/-- `Read` of a file, of which so much is unread. -/
def readCacheFile : ReadFn Bytes := fun m file =>
  (file.take m, if file = [] ∧ 0 < m then .eof else .ok, file.drop m)

/-- `updateCacher`, over a new cache file. -/
def UpdateStream.ofCreated (t : TeeReadCloser (CombinedSourceReader ReadSaver HttpReader)) :
    UpdateStream :=
  ⟨.created, t.reader.firstReader.unread, t.reader.firstReaderEOF, t.reader.secondReader, t.writer⟩

/-- `doubleReader`, over a cache file that was there. -/
def UpdateStream.ofResumed (c : CombinedSourceReader Bytes (TeeReadCloser HttpReader)) :
    UpdateStream :=
  ⟨.resumed, c.firstReader, c.firstReaderEOF, c.secondReader.reader, c.secondReader.writer⟩

/-- A read of a saver, as the stream has it. -/
theorem readFirst_saver {saver saver' : ReadSaver} (h : saver.read m = (data, e, saver'))
    (image : HttpReader) (cache : Bytes) :
    UpdateStream.readFirst m ⟨.created, saver.unread, false, image, cache⟩ =
        (data, decide (e = .eof)) ∧
      saver.unread.drop data.length = saver'.unread := by
  obtain ⟨hunread, -⟩ := ReadSaver.read_cases h
  constructor
  · rw [ReadSaver.read_eq] at h
    unfold UpdateStream.readFirst
    split at h
    · next hnil =>
      cases h
      rw [if_pos hnil]
      simp
    · next hne =>
      cases h
      rw [if_neg hne]
      rfl
  · rw [hunread]
    exact List.drop_left

/-- A read of the cache file, as the stream has it. -/
theorem readFirst_file {file file' : Bytes} (h : readCacheFile m file = (data, e, file'))
    (image : HttpReader) (cache : Bytes) :
    UpdateStream.readFirst m ⟨.resumed, file, false, image, cache⟩ = (data, decide (e = .eof)) ∧
      file.drop data.length = file' := by
  cases h
  unfold UpdateStream.readFirst
  by_cases hfile : file = []
  · subst hfile
    simp [Nat.pos_iff_ne_zero]
  · simp [hfile]

/-- The stream over a new cache file is a tee of what was saved and the connection. -/
theorem read_created {t t' : TeeReadCloser (CombinedSourceReader ReadSaver HttpReader)}
    (h : TeeReadCloser.read (CombinedSourceReader.read ReadSaver.read
      (HttpReader.read net retryCount artifact)) m t = (data, e, t')) :
    (UpdateStream.ofCreated t).read net retryCount artifact m =
      (data, e, UpdateStream.ofCreated t') := by
  obtain ⟨⟨saver, eof, image⟩, cache⟩ := t
  unfold TeeReadCloser.read CombinedSourceReader.read at h
  unfold UpdateStream.read UpdateStream.ofCreated
  cases eof with
  | false =>
    cases hread : saver.read m with
    | mk saved rest =>
      rcases rest with ⟨e₁, saver'⟩
      simp only [hread, Bool.not_false, if_true] at h
      cases h
      obtain ⟨hfirst, hdrop⟩ := readFirst_saver hread image cache
      simp only [hfirst, hdrop, Bool.false_eq_true, if_false, if_true]
  | true =>
    cases himage : image.read net retryCount artifact m with
    | mk read rest =>
      rcases rest with ⟨e₂, image'⟩
      simp only [himage, Bool.not_true, Bool.false_eq_true, if_false] at h
      cases h
      simp

/-- The stream over a cache file is that file, and then a tee of the connection. -/
theorem read_resumed {c c' : CombinedSourceReader Bytes (TeeReadCloser HttpReader)}
    (h : CombinedSourceReader.read readCacheFile
      (TeeReadCloser.read (HttpReader.read net retryCount artifact)) m c = (data, e, c')) :
    (UpdateStream.ofResumed c).read net retryCount artifact m =
      (data, e, UpdateStream.ofResumed c') := by
  obtain ⟨file, eof, ⟨image, cache⟩⟩ := c
  unfold TeeReadCloser.read CombinedSourceReader.read at h
  unfold UpdateStream.read UpdateStream.ofResumed
  cases eof with
  | false =>
    cases hread : readCacheFile m file with
    | mk saved rest =>
      rcases rest with ⟨e₁, file'⟩
      simp only [hread, Bool.not_false, if_true] at h
      cases h
      obtain ⟨hfirst, hdrop⟩ := readFirst_file hread image cache
      simp only [hfirst, hdrop, Bool.false_eq_true, if_false, reduceCtorEq]
  | true =>
    cases himage : image.read net retryCount artifact m with
    | mk read rest =>
      rcases rest with ⟨e₂, image'⟩
      simp only [himage, Bool.not_true, Bool.false_eq_true, if_false] at h
      cases h
      simp

end Stacks

end Rdfm.Linux
