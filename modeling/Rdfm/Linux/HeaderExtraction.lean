import Rdfm.Lib.FileSys
import Rdfm.Linux.ReaderComposition
import Rdfm.Linux.UpdateCache

/-!
# The header of an artifact

`GetHeader` walks through an archive up to its entry `header.tar`, makes a buffer of the size that
the archive announces and reads until the buffer is full. It drops the errors of these reads, so an
entry with fewer bytes than it announces keeps it in the loop (`fillHeader_short`). It returns what
it should exactly if the entry is complete and the buffer can be made (`extracts_iff`).

`archive/tar` is a parameter, known by the entries it finds in a stream. Over the bytes of a stream
that has ended, the outcome is the one by which the cache file gets its name (`getHeader_ended`).
-/

namespace Rdfm.Linux

open Rdfm.Lib

/-! ## Archives -/

/-- Errors of `Next`. -/
inductive TarError where
  | unexpectedEOF
  | invalidHeader
  /-- An error of the stream below. -/
  | stream
deriving DecidableEq, Repr

/-- An entry as far as it is in the stream: the bytes that can be read, up to the announced size. -/
structure ArchiveEntry where
  name : Text
  size : Nat
  data : Bytes
  within : data.length ≤ size
deriving DecidableEq

/-- The entries of a stream, and the error behind them; `none` is `io.EOF`. -/
structure Archive where
  entries : List ArchiveEntry
  ending : Option TarError
deriving DecidableEq

inductive TarNext where
  | entry (name : Text) (size : Nat)
  | eof
  | error (e : TarError)
deriving DecidableEq, Repr

structure TarReader (σ : Type*) where
  next : σ → TarNext × σ
  read : ReadFn σ

/-- What `Next` reports behind the last entry. -/
def TarNext.ofEnding : Option TarError → TarNext
  | none => .eof
  | some e => .error e

/-- A reader at a place in a stream: the archive behind the current entry, and what is left of the
data of that entry. A read takes at least one byte while there is one, and reports the end then. -/
structure TarReader.Finds {σ : Type*} (t : TarReader σ) (At : Archive → Bytes → σ → Prop) :
    Prop where
  next_end : ∀ ending data s, At ⟨[], ending⟩ data s → (t.next s).1 = .ofEnding ending
  next_entry : ∀ e entries ending data s, At ⟨e :: entries, ending⟩ data s →
    ∃ s', t.next s = (.entry e.name e.size, s') ∧ At ⟨entries, ending⟩ e.data s'
  read : ∀ archive data s m, 0 < m → At archive data s →
    ∃ chunk rest stop s', t.read m s = (chunk, stop, s') ∧ data = chunk ++ rest ∧
      chunk.length ≤ m ∧ (chunk = [] → data = [] ∧ stop ≠ .ok) ∧ At archive rest s'

/-! ## GetHeader -/

inductive HeaderStop where
  | next (e : TarError)
  /-- `no header found in artifact`. -/
  | noHeader
  /-- `makeslice: len out of range`. -/
  | panicked
deriving DecidableEq, Repr

def headerTar : Text := "header.tar".toList

section GetHeader

variable {σ : Type*} (t : TarReader σ) (memory : Nat)

/-- The inner loop: `header` is the buffer up to `offset`, and the errors of `Read` are dropped.
`none` if it has not ended after so many rounds. -/
def fillHeader (size : Nat) : Nat → Bytes → σ → Option Bytes
  | 0, _, _ => none
  | fuel + 1, header, s =>
    if header.length ≥ size then some header
    else
      match t.read (size - header.length) s with
      | (chunk, _, s) => fillHeader size fuel (header ++ chunk) s

/-- `GetHeader`, when slices have at most `memory` bytes; `none` if it has not returned after so many
rounds of its loops. -/
def getHeader : Nat → σ → Option (Except HeaderStop Bytes)
  | 0, _ => none
  | fuel + 1, s =>
    match t.next s with
    | (.eof, _) => some (.error .noHeader)
    | (.error e, _) => some (.error (.next e))
    | (.entry name size, s) =>
      if name = headerTar then
        if memory < size then some (.error .panicked)
        else (fillHeader t size fuel [] s).map .ok
      else getHeader fuel s

end GetHeader

/-! ## The inner loop -/

section Fill

variable {σ : Type*} {t : TarReader σ} {At : Archive → Bytes → σ → Prop} {archive : Archive}
  {data : Bytes} {s : σ}

/-- A complete entry is read to its end, a byte a round at least. -/
theorem fillHeader_complete (hfinds : t.Finds At) (hat : At archive data s) {size : Nat}
    {header : Bytes} (hsize : header.length + data.length = size) {fuel : Nat}
    (hfuel : data.length < fuel) : fillHeader t size fuel header s = some (header ++ data) := by
  induction fuel generalizing data s header with
  | zero => omega
  | succ fuel ih =>
    unfold fillHeader
    by_cases hnil : data = []
    · subst hnil
      rw [List.length_nil, Nat.add_zero] at hsize
      rw [if_pos (Nat.le_of_eq hsize.symm), List.append_nil]
    · have hpos : 0 < data.length := List.length_pos_iff.mpr hnil
      rw [if_neg (by omega)]
      obtain ⟨chunk, rest, stop, s', hread, rfl, -, hsome, hat'⟩ :=
        hfinds.read archive data s (size - header.length) (by omega) hat
      have hchunk : 0 < chunk.length :=
        List.length_pos_iff.mpr fun h => hnil (hsome h).1
      rw [List.length_append] at hsize hfuel
      rw [hread]
      dsimp only
      rw [ih hat' (by rw [List.length_append]; omega) (by omega), List.append_assoc]

/-- An entry that is cut off never fills the buffer. -/
theorem fillHeader_short (hfinds : t.Finds At) (hat : At archive data s) {size : Nat}
    {header : Bytes} (hsize : header.length + data.length < size) (fuel : Nat) :
    fillHeader t size fuel header s = none := by
  induction fuel generalizing data s header with
  | zero => rfl
  | succ fuel ih =>
    unfold fillHeader
    rw [if_neg (by omega)]
    obtain ⟨chunk, rest, stop, s', hread, rfl, -, -, hat'⟩ :=
      hfinds.read archive data s (size - header.length) (by omega) hat
    rw [hread]
    dsimp only
    apply ih hat'
    rw [List.length_append] at hsize ⊢
    omega

end Fill

/-! ## What comes back -/

namespace Archive

/-- The entry that `GetHeader` looks for. -/
def header (archive : Archive) : Option ArchiveEntry :=
  archive.entries.find? (·.name = headerTar)

/-- What `GetHeader` returns; `none` if it stays in the inner loop. -/
def outcome (memory : Nat) (archive : Archive) : Option (Except HeaderStop Bytes) :=
  match archive.header with
  | some e =>
    if memory < e.size then some (.error .panicked)
    else if e.data.length = e.size then some (.ok e.data)
    else none
  | none =>
    match archive.ending with
    | none => some (.error .noHeader)
    | some e => some (.error (.next e))

theorem header_cons_of_eq {e : ArchiveEntry} (h : e.name = headerTar)
    (entries : List ArchiveEntry) (ending : Option TarError) :
    (Archive.mk (e :: entries) ending).header = some e :=
  List.find?_cons_of_pos (decide_eq_true h)

theorem header_cons_of_ne {e : ArchiveEntry} (h : e.name ≠ headerTar)
    (entries : List ArchiveEntry) (ending : Option TarError) :
    (Archive.mk (e :: entries) ending).header = (Archive.mk entries ending).header :=
  List.find?_cons_of_neg (by rw [decide_eq_true_eq]; exact h)

theorem outcome_cons_of_ne {e : ArchiveEntry} (h : e.name ≠ headerTar) (memory : Nat)
    (entries : List ArchiveEntry) (ending : Option TarError) :
    (Archive.mk (e :: entries) ending).outcome memory =
      (Archive.mk entries ending).outcome memory := by
  unfold outcome
  rw [header_cons_of_ne h]

end Archive

section Extraction

variable {σ : Type*} {t : TarReader σ} {At : Archive → Bytes → σ → Prop} {memory : Nat}

/-- One round of the outer loop. -/
theorem getHeader_next (memory : Nat) (hfinds : t.Finds At) {e : ArchiveEntry}
    {entries : List ArchiveEntry} {ending : Option TarError} {data : Bytes} {s : σ}
    (hat : At ⟨e :: entries, ending⟩ data s) :
    ∃ s', At ⟨entries, ending⟩ e.data s' ∧ ∀ fuel, getHeader t memory (fuel + 1) s =
      if e.name = headerTar then
        if memory < e.size then some (.error .panicked)
        else (fillHeader t e.size fuel [] s').map .ok
      else getHeader t memory fuel s' := by
  obtain ⟨s', hnext, hat'⟩ := hfinds.next_entry e entries ending data s hat
  refine ⟨s', hat', fun fuel => ?_⟩
  rw [getHeader, hnext]

/-- With enough rounds it returns its outcome. -/
theorem getHeader_returns (hfinds : t.Finds At) {r : Except HeaderStop Bytes} :
    ∀ (archive : Archive) (data : Bytes) (s : σ), At archive data s →
      archive.outcome memory = some r →
      ∃ rounds, ∀ fuel ≥ rounds, getHeader t memory fuel s = some r := by
  rintro ⟨entries, ending⟩
  induction entries with
  | nil =>
    intro data s hat hr
    refine ⟨1, fun fuel hfuel => ?_⟩
    obtain ⟨n, rfl⟩ : ∃ n, fuel = n + 1 := ⟨fuel - 1, by omega⟩
    have hnext := hfinds.next_end ending data s hat
    rcases hs : t.next s with ⟨next, s'⟩
    rw [hs] at hnext
    dsimp only at hnext
    subst hnext
    rw [getHeader, hs]
    cases ending with
    | none => exact hr
    | some e => exact hr
  | cons e entries ih =>
    intro data s hat hr
    obtain ⟨s', hat', hround⟩ := getHeader_next memory hfinds hat
    by_cases hname : e.name = headerTar
    · refine ⟨e.data.length + 2, fun fuel hfuel => ?_⟩
      obtain ⟨n, rfl⟩ : ∃ n, fuel = n + 1 := ⟨fuel - 1, by omega⟩
      rw [hround, if_pos hname]
      unfold Archive.outcome at hr
      rw [Archive.header_cons_of_eq hname] at hr
      dsimp only at hr
      by_cases hmemory : memory < e.size
      · rw [if_pos hmemory] at hr ⊢
        exact hr
      · rw [if_neg hmemory] at hr ⊢
        by_cases hsize : e.data.length = e.size
        · rw [if_pos hsize] at hr
          have hstart : ([] : Bytes).length + e.data.length = e.size := by
            rw [List.length_nil, Nat.zero_add, hsize]
          rw [fillHeader_complete hfinds hat' hstart (by omega)]
          exact hr
        · rw [if_neg hsize] at hr
          cases hr
    · rw [Archive.outcome_cons_of_ne hname] at hr
      obtain ⟨rounds, hrounds⟩ := ih e.data s' hat' hr
      refine ⟨rounds + 1, fun fuel hfuel => ?_⟩
      obtain ⟨n, rfl⟩ : ∃ n, fuel = n + 1 := ⟨fuel - 1, by omega⟩
      rw [hround, if_neg hname]
      exact hrounds n (by omega)

/-- Without an outcome it does not return, however long it runs. -/
theorem getHeader_stays (hfinds : t.Finds At) (fuel : Nat) :
    ∀ (archive : Archive) (data : Bytes) (s : σ), At archive data s →
      archive.outcome memory = none → getHeader t memory fuel s = none := by
  induction fuel with
  | zero => exact fun _ _ _ _ _ => rfl
  | succ fuel ih =>
    rintro ⟨entries, ending⟩ data s hat hr
    cases entries with
    | nil => cases ending <;> cases hr
    | cons e entries =>
      obtain ⟨s', hat', hround⟩ := getHeader_next memory hfinds hat
      rw [hround]
      by_cases hname : e.name = headerTar
      · rw [if_pos hname]
        unfold Archive.outcome at hr
        rw [Archive.header_cons_of_eq hname] at hr
        dsimp only at hr
        by_cases hmemory : memory < e.size
        · rw [if_pos hmemory] at hr
          cases hr
        · rw [if_neg hmemory] at hr ⊢
          have hne : e.data.length ≠ e.size := fun hsize => by
            rw [if_pos hsize] at hr
            cases hr
          have hshort : ([] : Bytes).length + e.data.length < e.size := by
            rw [List.length_nil, Nat.zero_add]
            exact Nat.lt_of_le_of_ne e.within hne
          rw [fillHeader_short hfinds hat' hshort, Option.map_none]
      · rw [if_neg hname]
        rw [Archive.outcome_cons_of_ne hname] at hr
        exact ih ⟨entries, ending⟩ e.data s' hat' hr

end Extraction

/-! ## The bytes of the stream -/

/-- An archive as it is scanned in these bytes. -/
structure Tar.Holds (tar : Tar) (saved : Bytes) (archive : Archive) : Prop where
  header : ∀ start size, tar.scan saved = .header start size → start ≤ saved.length ∧
    ∃ e, archive.header = some e ∧ e.size = size ∧ e.data = (saved.drop start).take size
  without : (∀ start size, tar.scan saved ≠ .header start size) → archive.header = none

/-- What the caller gets, when it drops the error. -/
def HeaderRead.ofOutcome : Option (Except HeaderStop Bytes) → HeaderRead
  | none => .hangs
  | some (.ok header) => .returned header
  | some (.error _) => .returned []

theorem Archive.ofOutcome_without {archive : Archive} (h : archive.header = none) (memory : Nat) :
    HeaderRead.ofOutcome (archive.outcome memory) = .returned [] := by
  unfold Archive.outcome
  rw [h]
  cases archive.ending <;> rfl

/-- When the stream has ended, the coarser `Tar.getHeader` has the same outcome. -/
theorem getHeader_ended {tar : Tar} {saved : Bytes} {archive : Archive} {memory : Nat}
    (h : tar.Holds saved archive) (hsize : ∀ e, archive.header = some e → e.size ≤ memory) :
    tar.getHeader saved true = .ofOutcome (archive.outcome memory) := by
  unfold Tar.getHeader
  cases hscan : tar.scan saved with
  | more =>
    rw [Archive.ofOutcome_without (h.without (by rw [hscan]; nofun))]
    rfl
  | ended =>
    rw [Archive.ofOutcome_without (h.without (by rw [hscan]; nofun))]
  | header start size =>
    obtain ⟨hstart, e, he, rfl, hdata⟩ := h.header start size hscan
    have hlength : e.data.length = min e.size (saved.length - start) := by
      rw [hdata, List.length_take, List.length_drop]
    dsimp only
    unfold Archive.outcome
    rw [he]
    dsimp only
    rw [if_neg (Nat.not_lt.mpr (hsize e he))]
    by_cases hall : start + e.size ≤ saved.length
    · rw [if_pos hall, if_pos (by omega), ← hdata]
      rfl
    · have hcut : e.data.length ≠ e.size := by omega
      rw [if_neg hall, if_pos rfl, if_neg hcut]
      rfl

/-! ## The contract -/

/-- The content of the header if the archive has all of it, and an error otherwise. -/
def Archive.Expects (archive : Archive) : Except HeaderStop Bytes → Prop
  | .ok header => ∃ e, archive.header = some e ∧ e.data.length = e.size ∧ header = e.data
  | .error stop => stop ≠ .panicked ∧ ∀ e, archive.header = some e → e.data.length < e.size

/-- `GetHeader` returns, and what it should. -/
def Extracts {σ : Type*} (t : TarReader σ) (memory : Nat) (archive : Archive) (s : σ) : Prop :=
  ∃ r, archive.Expects r ∧ ∃ rounds, ∀ fuel ≥ rounds, getHeader t memory fuel s = some r

/-- A header, if there is one, is complete and fits a slice. -/
def Archive.HeaderReadable (memory : Nat) (archive : Archive) : Prop :=
  ∀ e, archive.header = some e → e.data.length = e.size ∧ e.size ≤ memory

theorem Archive.expects_outcome_iff {memory : Nat} {archive : Archive} :
    (∃ r, archive.Expects r ∧ archive.outcome memory = some r) ↔
      archive.HeaderReadable memory := by
  unfold Archive.outcome Archive.HeaderReadable
  cases hheader : archive.header with
  | none =>
    have hno (e : ArchiveEntry) (he : archive.header = some e) : e.data.length < e.size := by
      rw [hheader] at he
      cases he
    refine iff_of_true ?_ nofun
    cases archive.ending with
    | none => exact ⟨.error .noHeader, ⟨nofun, hno⟩, rfl⟩
    | some err => exact ⟨.error (.next err), ⟨nofun, hno⟩, rfl⟩
  | some e =>
    dsimp only
    by_cases hmemory : memory < e.size
    · rw [if_pos hmemory]
      constructor
      · rintro ⟨r, hexpects, hr⟩
        cases hr
        exact absurd rfl hexpects.1
      · intro h
        exact absurd (h e rfl).2 (Nat.not_le.mpr hmemory)
    · rw [if_neg hmemory]
      by_cases hsize : e.data.length = e.size
      · rw [if_pos hsize]
        refine iff_of_true ⟨.ok e.data, ⟨e, hheader, hsize, rfl⟩, rfl⟩ fun e' he' => ?_
        cases he'
        exact ⟨hsize, Nat.not_lt.mp hmemory⟩
      · rw [if_neg hsize]
        refine iff_of_false ?_ fun h => hsize (h e rfl).1
        rintro ⟨r, -, hr⟩
        cases hr

/-- `GetHeader` returns the header or an error, exactly if the header is not cut off and not too
large. -/
theorem extracts_iff {σ : Type*} {t : TarReader σ} {At : Archive → Bytes → σ → Prop}
    (hfinds : t.Finds At) {memory : Nat} {archive : Archive} {s : σ} (hat : At archive [] s) :
    Extracts t memory archive s ↔ archive.HeaderReadable memory := by
  rw [← Archive.expects_outcome_iff]
  constructor
  · rintro ⟨r, hexpects, rounds, hrounds⟩
    refine ⟨r, hexpects, ?_⟩
    cases hr : archive.outcome memory with
    | none =>
      have hnone := getHeader_stays hfinds rounds archive [] s hat hr
      rw [hrounds rounds (Nat.le_refl rounds)] at hnone
      cases hnone
    | some r' =>
      obtain ⟨rounds', hrounds'⟩ := getHeader_returns hfinds archive [] s hat hr
      have h := hrounds (max rounds rounds') (Nat.le_max_left ..)
      rw [hrounds' _ (Nat.le_max_right ..)] at h
      exact h
  · rintro ⟨r, hexpects, hr⟩
    exact ⟨r, hexpects, getHeader_returns hfinds archive [] s hat hr⟩

/-! ## A truncated artifact -/

/-- The reader over an archive itself, with as much data in a read as there is. -/
def archiveReader : TarReader (Archive × Bytes) where
  next s :=
    match s.1.entries with
    | [] => (.ofEnding s.1.ending, s)
    | e :: entries => (.entry e.name e.size, (⟨entries, s.1.ending⟩, e.data))
  read m s := (s.2.take m, if s.2 = [] then .eof else .ok, (s.1, s.2.drop m))

theorem archiveReader_finds : archiveReader.Finds fun archive data s => s = (archive, data) where
  next_end ending data s hat := by
    subst hat
    rfl
  next_entry e entries ending data s hat := by
    subst hat
    exact ⟨_, rfl, rfl⟩
  read archive data s m hm hat := by
    subst hat
    refine ⟨data.take m, data.drop m, _, _, rfl, (List.take_append_drop m data).symm,
      List.length_take_le m data, fun hnil => ?_, rfl⟩
    have hdata : data = [] := by
      rcases List.take_eq_nil_iff.mp hnil with h | h
      · omega
      · exact h
    exact ⟨hdata, by rw [if_pos hdata]; nofun⟩

/-- An artifact with its version and a header of four bytes, as far as it was downloaded. -/
def downloaded (data : Bytes) (within : data.length ≤ 4) (ending : Option TarError) : Archive :=
  ⟨[⟨"version".toList, 2, [123, 125], by decide⟩, ⟨headerTar, 4, data, within⟩], ending⟩

theorem extracts_downloaded :
    Extracts archiveReader 64 (downloaded [1, 2, 3, 4] (by decide) none)
      (downloaded [1, 2, 3, 4] (by decide) none, []) :=
  (extracts_iff archiveReader_finds rfl).mpr fun e he => by
    have he' : some (ArchiveEntry.mk headerTar 4 [1, 2, 3, 4] (by decide)) = some e := he
    cases he'
    decide

/-- The download ends after two bytes of the header: `GetHeader` does not return. -/
theorem truncated_header_stays :
    archiveReader.Finds (fun archive data s => s = (archive, data)) ∧
      (∀ fuel, getHeader archiveReader 64 fuel
        (downloaded [1, 2] (by decide) (some .unexpectedEOF), []) = none) ∧
      ¬ Extracts archiveReader 64 (downloaded [1, 2] (by decide) (some .unexpectedEOF))
        (downloaded [1, 2] (by decide) (some .unexpectedEOF), []) := by
  have hstays (fuel : Nat) : getHeader archiveReader 64 fuel
      (downloaded [1, 2] (by decide) (some .unexpectedEOF), []) = none :=
    getHeader_stays archiveReader_finds fuel _ [] _ rfl rfl
  refine ⟨archiveReader_finds, hstays, ?_⟩
  rintro ⟨r, -, rounds, hrounds⟩
  have h := hrounds rounds (Nat.le_refl rounds)
  rw [hstays] at h
  cases h

end Rdfm.Linux
