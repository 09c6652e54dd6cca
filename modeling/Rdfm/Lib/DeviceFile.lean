import Mathlib.Data.List.Basic
import Mathlib.Tactic.Common

/-!
# A device file of fixed size, with faults

A file position over a byte sequence that keeps its length: reads and writes move the position, a
write replaces bytes in place (`overwrite`) and cannot pass the end. Which system calls fail, and
after how many bytes, is given from outside (`Faults`), indexed by the number of calls made so far.
-/

namespace Rdfm.Lib

abbrev Bytes := List UInt8

/-- `content` with `b` in place of the bytes from `pos` on. -/
def overwrite (content : Bytes) (pos : Nat) (b : Bytes) : Bytes :=
  content.take pos ++ b ++ content.drop (pos + b.length)

@[simp] theorem overwrite_nil (content : Bytes) (pos : Nat) : overwrite content pos [] = content := by
  simp [overwrite]

/-- Writing what is already there changes nothing. -/
theorem overwrite_prefix_eq {content b : Bytes} {pos : Nat} (h : b <+: content.drop pos) :
    overwrite content pos b = content := by
  obtain ⟨rest, hrest⟩ := h
  unfold overwrite
  rw [← List.drop_drop, ← hrest, List.drop_left, List.append_assoc, hrest, List.take_append_drop]

/-- Writing right behind a rewritten prefix extends the prefix. -/
theorem overwrite_append (e b rest : Bytes) :
    overwrite (e ++ rest) e.length b = e ++ b ++ rest.drop b.length := by
  unfold overwrite
  rw [List.take_left, ← List.drop_drop, List.drop_left]

/-- For each system call: it completes, or it fails after moving some bytes. -/
abbrev Faults := Nat → Option Nat

def noFaults : Faults := fun _ => none

inductive Errno where
  | eof
  | io
  | noSpace
  | invalid
deriving DecidableEq, Repr

structure DeviceFile where
  content : Bytes
  pos : Nat
  calls : Nat
deriving DecidableEq, Repr

namespace DeviceFile

/-- Read exactly `n` bytes, or fail. -/
def readFull (io : Faults) (n : Nat) (f : DeviceFile) : Except Errno Bytes × DeviceFile :=
  let data := (f.content.drop f.pos).take n
  match io f.calls with
  | some k =>
    (.error .io, { f with pos := f.pos + (data.take k).length, calls := f.calls + 1 })
  | none =>
    (if data.length = n then .ok data else .error .eof,
      { f with pos := f.pos + data.length, calls := f.calls + 1 })

/-- Move the position `n` bytes back. -/
def seekBack (io : Faults) (n : Nat) (f : DeviceFile) : Option Errno × DeviceFile :=
  match io f.calls with
  | some _ => (some .io, { f with calls := f.calls + 1 })
  | none =>
    if n ≤ f.pos then (none, { f with pos := f.pos - n, calls := f.calls + 1 })
    else (some .invalid, { f with calls := f.calls + 1 })

/-- Write at the position; a device does not grow. -/
def write (io : Faults) (b : Bytes) (f : DeviceFile) : (Nat × Option Errno) × DeviceFile :=
  let fitting := b.take (f.content.length - f.pos)
  let put (b' : Bytes) : DeviceFile :=
    { content := overwrite f.content f.pos b', pos := f.pos + b'.length, calls := f.calls + 1 }
  match io f.calls with
  | some k => (((fitting.take k).length, some .io), put (fitting.take k))
  | none =>
    ((fitting.length, if fitting.length = b.length then none else some .noSpace), put fitting)

/-- `Sync` and `Close` touch no byte. -/
def sync (io : Faults) (f : DeviceFile) : Option Errno × DeviceFile :=
  ((io f.calls).map fun _ => .io, { f with calls := f.calls + 1 })

/-! ## What a call can do -/

theorem readFull_content (io : Faults) (n : Nat) (f : DeviceFile) :
    (f.readFull io n).2.content = f.content := by
  unfold readFull
  cases io f.calls <;> rfl

/-- A read that succeeds got the whole frame and stands behind it. -/
theorem readFull_ok {io : Faults} {n : Nat} {f f' : DeviceFile} {data : Bytes}
    (h : f.readFull io n = (.ok data, f')) :
    data = (f.content.drop f.pos).take n ∧ data.length = n ∧ f'.content = f.content ∧
      f'.pos = f.pos + n := by
  unfold readFull at h
  cases hio : io f.calls with
  | some k => simp [hio] at h
  | none =>
    simp only [hio, Prod.mk.injEq] at h
    obtain ⟨hd, hf⟩ := h
    split at hd
    · next hlen =>
      simp only [Except.ok.injEq] at hd
      subst hd hf
      exact ⟨rfl, hlen, rfl, by rw [hlen]⟩
    · cases hd

theorem readFull_noFaults {n : Nat} {f : DeviceFile} (h : f.pos + n ≤ f.content.length) :
    ∃ f', f.readFull noFaults n = (.ok ((f.content.drop f.pos).take n), f') := by
  unfold readFull noFaults
  have hlen : ((f.content.drop f.pos).take n).length = n := by
    rw [List.length_take, List.length_drop]
    omega
  simp [hlen]

theorem readFull_short (io : Faults) {n : Nat} {f : DeviceFile}
    (h : f.content.length < f.pos + n) (hpos : f.pos ≤ f.content.length) :
    ∃ e f', f.readFull io n = (.error e, f') := by
  unfold readFull
  cases io f.calls with
  | some k => exact ⟨_, _, rfl⟩
  | none =>
    have hlen : ((f.content.drop f.pos).take n).length ≠ n := by
      rw [List.length_take, List.length_drop]
      omega
    simp only [if_neg hlen]
    exact ⟨_, _, rfl⟩

/-- Whatever the outcome, a write puts a prefix of its bytes at the position. -/
theorem write_content (io : Faults) (b : Bytes) (f : DeviceFile) :
    ∃ k, (f.write io b).2.content = overwrite f.content f.pos (b.take k) := by
  unfold write
  cases io f.calls with
  | some k =>
    refine ⟨min k (f.content.length - f.pos), ?_⟩
    simp [List.take_take]
  | none => exact ⟨f.content.length - f.pos, rfl⟩

theorem write_ok {io : Faults} {b : Bytes} {f f' : DeviceFile} {m : Nat}
    (h : f.write io b = ((m, none), f')) :
    f'.content = overwrite f.content f.pos b ∧ f'.pos = f.pos + b.length ∧ m = b.length := by
  unfold write at h
  cases hio : io f.calls with
  | some k => simp [hio] at h
  | none =>
    simp only [hio, Prod.mk.injEq] at h
    obtain ⟨⟨hm, he⟩, hf⟩ := h
    split at he
    · next hlen =>
      have hfit : b.take (f.content.length - f.pos) = b := by
        apply List.take_of_length_le
        rw [List.length_take] at hlen
        omega
      rw [hfit] at hm hf
      subst hf
      exact ⟨rfl, rfl, hm.symm⟩
    · cases he

theorem write_noFaults {b : Bytes} {f : DeviceFile} (h : f.pos + b.length ≤ f.content.length) :
    ∃ f', f.write noFaults b = ((b.length, none), f') := by
  unfold write noFaults
  have hfit : b.take (f.content.length - f.pos) = b := List.take_of_length_le (by omega)
  simp [hfit]

theorem seekBack_ok {io : Faults} {n : Nat} {f f' : DeviceFile} (h : f.seekBack io n = (none, f')) :
    f'.content = f.content ∧ f'.pos = f.pos - n := by
  unfold seekBack at h
  cases hio : io f.calls with
  | some k => simp [hio] at h
  | none =>
    simp only [hio] at h
    split at h
    · simp only [Prod.mk.injEq, true_and] at h
      subst h
      exact ⟨rfl, rfl⟩
    · simp at h

theorem seekBack_content (io : Faults) (n : Nat) (f : DeviceFile) :
    (f.seekBack io n).2.content = f.content := by
  unfold seekBack
  split
  · rfl
  · split <;> rfl

theorem seekBack_noFaults {n : Nat} {f : DeviceFile} (h : n ≤ f.pos) :
    ∃ f', f.seekBack noFaults n = (none, f') := by
  unfold seekBack noFaults
  simp [h]

end DeviceFile

end Rdfm.Lib
