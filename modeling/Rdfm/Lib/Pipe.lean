import Mathlib.Data.List.Basic
import Mathlib.Logic.Function.Basic
import Mathlib.Tactic.Common

/-!
# Programs that read from pipes

A pipe without a buffer, whose two ends are closed on their own; and programs that read from several
streams and return, as trees with a branch for each answer of a read. Read from sources that lie
there in full, such a program has one outcome (`Reading.run`). What a pipe gives its reader is what
is left of the source behind it (`Pipe.read_source`), so a program at the ends of pipes has the same
outcome, whenever its writers write.

A system with such a program in it comes to an end if its other steps lower a measure
(`Reading.acc`).
-/

namespace Rdfm.Lib

/-- How a stream ends for its reader. -/
inductive ReadEnd where
  | eof
  | error
deriving DecidableEq, Repr

/-- What a read returns. -/
inductive ReadResult (α : Type*) where
  | data (bs : List α)
  | ended (e : ReadEnd)

/-- A program that reads from the streams `ι`, with buffers of its own sizes, and returns. -/
inductive Reading (ι α ρ : Type*) where
  | read (i : ι) (n : ℕ) (k : ReadResult α → Reading ι α ρ)
  | done (r : ρ)

/-- What a reader has before it: the pieces that somebody writes, and how they end. -/
structure Source (α : Type*) where
  chunks : List (List α)
  ending : ReadEnd

/-- A pipe: the write that waits for its reader, and how each end was closed. -/
structure Pipe (α : Type*) where
  pending : Option (List α)
  writer : Option ReadEnd
  readerClosed : Bool

variable {ι α ρ : Type*}

/-- What is left of a write, once a read has taken its part. -/
def unread (b : List α) : Option (List α) :=
  match b with
  | [] => none
  | x :: xs => some (x :: xs)

/-! ## Sources -/

def Source.content (s : Source α) : List α := s.chunks.flatten

def Source.read (s : Source α) (n : ℕ) : ReadResult α × Source α :=
  match s.chunks with
  | [] => (.ended s.ending, s)
  | b :: bs => (.data (b.take n), ⟨(unread (b.drop n)).toList ++ bs, s.ending⟩)

section Run

variable [DecidableEq ι]

/-- The outcome of a program, from sources that nobody changes meanwhile. -/
def Reading.run : Reading ι α ρ → (ι → Source α) → ρ
  | done r, _ => r
  | read i n k, s => (k ((s i).read n).1).run (Function.update s i ((s i).read n).2)

/-- The program reads the source `i` up to its end, and sees it. -/
def Reading.meetsEnd (i : ι) : Reading ι α ρ → (ι → Source α) → Bool
  | done _, _ => false
  | read j n k, s =>
    (decide (j = i) && (s i).chunks.isEmpty) ||
      (k ((s j).read n).1).meetsEnd i (Function.update s j ((s j).read n).2)

end Run

/-! ## Pipes -/

namespace Pipe

def init : Pipe α where
  pending := none
  writer := none
  readerClosed := false

/-- A read, if it does not have to wait. -/
def read (p : Pipe α) (n : ℕ) : Option (ReadResult α × Pipe α) :=
  if p.readerClosed then some (.ended .error, p)
  else
    match p.writer, p.pending with
    | some e, _ => some (.ended e, p)
    | none, some b => some (.data (b.take n), { p with pending := unread (b.drop n) })
    | none, none => none

/-- What is before the reader, when `todo` is still to be written. -/
def source (p : Pipe α) (todo : List (List α)) (ending : ReadEnd) : Source α :=
  ⟨p.pending.toList ++ todo, ending⟩

/-- A writer that has closed its end has written everything, and told how it ends. -/
def Faithful (p : Pipe α) (todo : List (List α)) (ending : ReadEnd) : Prop :=
  ∀ e, p.writer = some e → e = ending ∧ p.pending = none ∧ todo = []

section Read

variable {p p' : Pipe α} {n : ℕ} {r : ReadResult α} {todo : List (List α)} {ending : ReadEnd}

/-- A read changes nothing but the write that waits. -/
theorem read_ends (h : p.read n = some (r, p')) :
    p'.writer = p.writer ∧ p'.readerClosed = p.readerClosed ∧ (p.pending = none → p'.pending = none) := by
  unfold read at h
  split at h
  · cases h
    exact ⟨rfl, rfl, id⟩
  · split at h
    · cases h
      exact ⟨rfl, rfl, id⟩
    · next hpending =>
      cases h
      refine ⟨rfl, rfl, fun hnone => ?_⟩
      rw [hpending] at hnone
      cases hnone
    · cases h

/-- A read from a pipe is a read from the source behind it. -/
theorem read_source (hopen : p.readerClosed = false) (hfaithful : p.Faithful todo ending)
    (h : p.read n = some (r, p')) :
    (p.source todo ending).read n = (r, p'.source todo ending) := by
  unfold read at h
  rw [hopen] at h
  simp only [Bool.false_eq_true, if_false] at h
  split at h
  · next e hwriter =>
    cases h
    obtain ⟨rfl, hpending, rfl⟩ := hfaithful e hwriter
    simp [source, Source.read, hpending]
  · next b hwriter hpending =>
    cases h
    simp [source, Source.read, hpending]
  · cases h

/-- A reader that sees the end finds it closed by the writer. -/
theorem writer_of_read (hopen : p.readerClosed = false)
    (hempty : (p.source todo ending).chunks = []) (h : p.read n = some (r, p')) :
    p.writer ≠ none := by
  intro hwriter
  have hpending : p.pending = none := by
    simp only [source, List.append_eq_nil_iff, Option.toList_eq_nil_iff] at hempty
    exact hempty.1
  simp [read, hopen, hwriter, hpending] at h

/-- A read waits only for a writer that neither writes nor has closed its end. -/
theorem read_isSome (h : p.readerClosed = true ∨ p.writer ≠ none ∨ p.pending ≠ none) :
    ∃ r p', p.read n = some (r, p') := by
  unfold read
  split
  · exact ⟨_, _, rfl⟩
  · next hopen =>
    split
    · exact ⟨_, _, rfl⟩
    · exact ⟨_, _, rfl⟩
    · next hwriter hpending =>
      rcases h with h | h | h
      · exact (hopen h).elim
      · exact (h hwriter).elim
      · exact (h hpending).elim

end Read

end Pipe

/-! ## Systems with a program in them -/

section Acc

variable {σ : Type*} {Step : σ → σ → Prop} {s : σ}

/-- If each step lowers a measure, or leads to where no run is infinite, then no run is infinite. -/
theorem acc_of_measure {P : σ → Prop} (μ : σ → ℕ)
    (hstep : ∀ s s', P s → Step s s' → P s' ∧ μ s' < μ s ∨ Acc (fun s' s => Step s s') s')
    (h : P s) : Acc (fun s' s => Step s s') s := by
  induction hμ : μ s using Nat.strongRecOn generalizing s with
  | ind m ih =>
    refine Acc.intro s fun s' hs' => ?_
    rcases hstep s s' h hs' with ⟨hP, hlt⟩ | hacc
    · exact ih (μ s') (hμ ▸ hlt) hP rfl
    · exact hacc

/-- The same for a system with a program in it, whose steps also may give the program the answer of a
read. -/
theorem Reading.acc {At : σ → Reading ι α ρ → Prop} (μ : σ → ℕ)
    (hstep : ∀ s s' p, At s p → Step s s' →
      At s' p ∧ μ s' < μ s ∨ (∃ i n k r, p = .read i n k ∧ At s' (k r)) ∨
        Acc (fun s' s => Step s s') s')
    (p : Reading ι α ρ) (h : At s p) : Acc (fun s' s => Step s s') s := by
  induction p generalizing s with
  | read i n k ih =>
    refine acc_of_measure (P := (At · (.read i n k))) μ (fun s s' hat hs' => ?_) h
    rcases hstep s s' _ hat hs' with hkept | ⟨i', n', k', r, hk, hanswer⟩ | hacc
    · exact .inl hkept
    · cases hk
      exact .inr (ih r hanswer)
    · exact .inr hacc
  | done r =>
    refine acc_of_measure (P := (At · (.done r))) μ (fun s s' hat hs' => ?_) h
    rcases hstep s s' _ hat hs' with hkept | ⟨i', n', k', r', hk, -⟩ | hacc
    · exact .inl hkept
    · cases hk
    · exact .inr hacc

end Acc

end Rdfm.Lib
