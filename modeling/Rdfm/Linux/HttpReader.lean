import Rdfm.Lib.DeviceFile

/-!
# Reading an update over HTTP

`RdfmHttpUpdateReader`: a reader over the body of a reply that, on a connection error, asks for the
rest of the artifact with a range request and goes on in the caller's buffer. What the network does is
a `Net`: how it answers each request, and how it serves each read of a body.

A reply to a range request is either the requested suffix (206) or the complete artifact (200); the
reader takes every body to start at the offset it asked for. As long as complete bodies only answer
requests from offset zero, what it reads is the artifact (`HttpReader.read_spec`). An error may come
with any bytes of a body, also with its last ones, so the end of the artifact is an offset too that
the reader asks again from.
-/

namespace Rdfm.Linux

open Rdfm.Lib

/-! ## The network -/

/-- The reply to a request with a range. -/
inductive RangeStatus where
  /-- 206, with the requested suffix. -/
  | suffix
  /-- 200, with the complete body. -/
  | whole
deriving DecidableEq, Repr

structure HttpReply where
  status : RangeStatus
  /-- The `Accept-Ranges` header is there, and is not `none`. -/
  acceptRanges : Bool
deriving DecidableEq, Repr

def HttpReply.body (reply : HttpReply) (artifact : Bytes) (offset : Nat) : Bytes :=
  match reply.status with
  | .suffix => artifact.drop offset
  | .whole => artifact

/-- Both replies to a request from the start are the same body. -/
theorem HttpReply.body_zero (reply : HttpReply) (artifact : Bytes) :
    reply.body artifact 0 = artifact := by
  unfold HttpReply.body
  cases reply.status <;> rfl

/-- How one read of a body goes: at most so many bytes, whether an error comes with them, and at the
end of the body whether `io.EOF` comes with the last bytes. -/
structure Chunk where
  size : Nat
  error : Bool
  eof : Bool
deriving DecidableEq, Repr

/-- What happens to each request, by its number and the offset it asks for, and to each read of a
body. A request that fails, that has another status or no content length is `none`. -/
structure Net where
  reply : Nat → Nat → Option HttpReply
  chunk : Nat → Chunk

/-- The requests and the reads so far, and the replies with the offsets they were asked for. -/
structure Wire where
  requests : Nat
  reads : Nat
  asked : List (Nat × HttpReply)
deriving DecidableEq, Repr

def Wire.start : Wire := ⟨0, 0, []⟩

inductive ReadEnd where
  | ok
  | eof
  | error
deriving DecidableEq, Repr

variable (net : Net) (retryCount : Nat) (artifact : Bytes)

/-- `setupHttpConnection`: the body, and whether range requests are supported. -/
def setupHttpConnection (offset : Nat) (w : Wire) : Option (Bytes × Bool) × Wire :=
  match net.reply w.requests offset with
  | none => (none, { w with requests := w.requests + 1 })
  | some reply =>
    (some (reply.body artifact offset, reply.acceptRanges),
      { w with requests := w.requests + 1, asked := w.asked ++ [(offset, reply)] })

/-! ## The reader -/

structure HttpReader where
  offset : Nat
  /-- What is left of the body. -/
  body : Bytes
  /-- The body has failed. -/
  broken : Bool
  wire : Wire
deriving DecidableEq, Repr

/-- `NewRdfmHttpUpdateReader`. -/
def newRdfmHttpUpdateReader (offset : Nat) (w : Wire) : Option (HttpReader × Bool) × Wire :=
  match setupHttpConnection net artifact offset w with
  | (none, w) => (none, w)
  | (some (body, supportsRangeRequests), w) =>
    (some (⟨offset, body, false, w⟩, supportsRangeRequests), w)

namespace HttpReader

/-- `r.body.Read` into a buffer of `m` bytes, and the new offset. -/
def readBody (m : Nat) (r : HttpReader) : Bytes × ReadEnd × HttpReader :=
  -- Behind its last byte also a body that has failed can tell that it is at its end.
  if r.broken ∧ r.body ≠ [] then ([], .error, r)
  else
    let chunk := net.chunk r.wire.reads
    let data := r.body.take (min m chunk.size)
    let rest := r.body.drop data.length
    let r' : HttpReader := { r with
      offset := r.offset + data.length
      body := rest
      wire := { r.wire with reads := r.wire.reads + 1 } }
    if chunk.error then (data, .error, { r' with broken := true })
    else if rest = [] ∧ (data = [] ∨ chunk.eof) then (data, .eof, r')
    else (data, .ok, r')

/-- The loop of `Read` after a connection error. The buffer of `m` bytes holds `data`, whose last `n`
bytes are from the last read. -/
def resume (m : Nat) : Nat → Bytes → Nat → HttpReader → Bytes × ReadEnd × HttpReader
  | 0, data, _, r => (data, .error, r)
  | i + 1, data, n, r =>
    match setupHttpConnection net artifact r.offset r.wire with
    | (none, wire) => resume m i data n { r with wire }
    | (some (body, supportsRangeRequests), wire) =>
      if supportsRangeRequests then
        match readBody net (m - data.length) { r with body, broken := false, wire } with
        | (more, .error, r) => resume m i (data ++ more) more.length r
        | (more, e, r) => (data ++ more, e, r)
      -- Only the bytes of the last read are reported.
      else (data.take n, .error, { r with wire })

/-- `Read`. -/
def read (m : Nat) (r : HttpReader) : Bytes × ReadEnd × HttpReader :=
  match readBody net m r with
  | (data, .error, r) => resume net artifact m retryCount data data.length r
  | (data, e, r) => (data, e, r)

/-! ## What is read -/

/-- The body goes on where the reader is. -/
structure Sound (artifact : Bytes) (r : HttpReader) : Prop where
  body : r.body = artifact.drop r.offset
  bound : r.offset ≤ artifact.length

/-- A read that delivers the next bytes of the artifact, and `io.EOF` only at its end. -/
structure Delivers (artifact : Bytes) (r : HttpReader) (data : Bytes) (e : ReadEnd)
    (r' : HttpReader) : Prop where
  sound : r'.Sound artifact
  next : data <+: artifact.drop r.offset
  offset : r'.offset = r.offset + data.length
  eof : e = .eof → r'.offset = artifact.length

variable {net retryCount artifact} {m start : Nat} {r r' : HttpReader} {data : Bytes} {e : ReadEnd}

theorem Sound.take (h : r.Sound artifact) (n : Nat) :
    r.body.take n <+: artifact.drop r.offset := by
  rw [h.body]
  exact List.take_prefix _ _

/-- Where the reader is after it has taken some bytes of the body. -/
theorem Sound.advance (h : r.Sound artifact) (n : Nat) :
    r.body.drop (r.body.take n).length = artifact.drop (r.offset + (r.body.take n).length) ∧
      r.offset + (r.body.take n).length ≤ artifact.length := by
  have hlen : r.body.length = artifact.length - r.offset := by
    rw [h.body, List.length_drop]
  have htake : (r.body.take n).length ≤ r.body.length := by
    rw [List.length_take]
    exact Nat.min_le_right _ _
  have hbound := h.bound
  refine ⟨?_, by omega⟩
  rw [← List.drop_drop, ← h.body]

theorem readBody_spec (h : r.Sound artifact) (hread : readBody net m r = (data, e, r')) :
    Delivers artifact r data e r' := by
  unfold readBody at hread
  split at hread
  · cases hread
    exact ⟨h, List.nil_prefix, rfl, nofun⟩
  · rcases h.advance (min m (net.chunk r.wire.reads).size) with ⟨hrest, hbound⟩
    dsimp only at hread
    split at hread
    · cases hread
      exact ⟨⟨hrest, hbound⟩, h.take _, rfl, nofun⟩
    · split at hread
      · next hend =>
        cases hread
        refine ⟨⟨hrest, hbound⟩, h.take _, rfl, fun _ => ?_⟩
        have hnil := hend.1
        rw [hrest, List.drop_eq_nil_iff] at hnil
        exact Nat.le_antisymm hbound hnil
      · cases hread
        exact ⟨⟨hrest, hbound⟩, h.take _, rfl, nofun⟩

theorem readBody_asked (hread : readBody net m r = (data, e, r')) :
    r'.wire.asked = r.wire.asked := by
  unfold readBody at hread
  dsimp only at hread
  split at hread
  · cases hread
    rfl
  · split at hread
    · cases hread
      rfl
    · split at hread <;> cases hread <;> rfl

/-- The replies are what the server may answer, with range requests advertised. -/
def Conforms (server : Nat → RangeStatus → Prop) (asked : List (Nat × HttpReply)) : Prop :=
  ∀ a ∈ asked, a.2.acceptRanges = true ∧ server a.1 a.2.status

/-- The server answers no request behind the start with the complete body. -/
def Precise (artifact : Bytes) (server : Nat → RangeStatus → Prop) : Prop :=
  ∀ offset, server offset .whole → offset ≤ artifact.length → offset = 0

variable {server : Nat → RangeStatus → Prop} {i n offset : Nat} {w w' : Wire}

/-- A reply of a precise server is the rest of the artifact. -/
theorem setup_some {body : Bytes} {supports : Bool}
    (h : setupHttpConnection net artifact offset w = (some (body, supports), w'))
    (hconforms : Conforms server w'.asked)
    (hprecise : server offset .whole → offset = 0) :
    body = artifact.drop offset ∧ supports = true := by
  unfold setupHttpConnection at h
  split at h
  · cases h
  · next reply _ =>
    cases h
    rcases hconforms (offset, reply) (List.mem_append_right _ (List.mem_singleton_self _)) with
      ⟨hranges, hstatus⟩
    refine ⟨?_, hranges⟩
    unfold HttpReply.body
    cases hs : reply.status with
    | suffix => rfl
    | whole =>
      dsimp only at hstatus ⊢
      rw [hs] at hstatus
      rw [hprecise hstatus, List.drop_zero]

theorem setup_asked {result : Option (Bytes × Bool)}
    (h : setupHttpConnection net artifact offset w = (result, w')) : w.asked <+: w'.asked := by
  unfold setupHttpConnection at h
  split at h
  · cases h
    exact List.prefix_refl _
  · cases h
    exact List.prefix_append _ _

theorem Conforms.of_initial {asked asked' : List (Nat × HttpReply)}
    (h : Conforms server asked') (hinit : asked <+: asked') : Conforms server asked :=
  fun a ha => h a (hinit.subset ha)

theorem Conforms.nil : Conforms server [] := nofun

theorem Conforms.snoc {status : RangeStatus} {asked : List (Nat × HttpReply)}
    (h : Conforms server asked) (hstatus : server offset status) :
    Conforms server (asked ++ [(offset, ⟨status, true⟩)]) := by
  intro a ha
  rcases List.mem_append.mp ha with ha | ha
  · exact h a ha
  · rw [List.mem_singleton.mp ha]
    exact ⟨rfl, hstatus⟩

variable {result : Bytes}

/-- One round of the loop: no reply, no support for ranges, or a read of the new body. -/
theorem resume_cases (h : resume net artifact m (i + 1) data n r = (result, e, r')) :
    (∃ w, setupHttpConnection net artifact r.offset r.wire = (none, w) ∧
      resume net artifact m i data n { r with wire := w } = (result, e, r')) ∨
    (∃ body w, setupHttpConnection net artifact r.offset r.wire = (some (body, false), w) ∧
      result = data.take n ∧ e = .error ∧ r' = { r with wire := w }) ∨
    ∃ body w more e₁ r₁,
      setupHttpConnection net artifact r.offset r.wire = (some (body, true), w) ∧
      readBody net (m - data.length) { r with body, broken := false, wire := w } = (more, e₁, r₁) ∧
      (e₁ = .error ∧ resume net artifact m i (data ++ more) more.length r₁ = (result, e, r') ∨
        e₁ ≠ .error ∧ result = data ++ more ∧ e = e₁ ∧ r' = r₁) := by
  rw [resume] at h
  split at h
  · next w hsetup => exact .inl ⟨w, hsetup, h⟩
  · next body supports w hsetup =>
    cases supports with
    | false =>
      cases h
      exact .inr (.inl ⟨body, w, hsetup, rfl, rfl, rfl⟩)
    | true =>
      rw [if_pos rfl] at h
      split at h
      · next more r₁ hread =>
        exact .inr (.inr ⟨body, w, more, .error, r₁, hsetup, hread, .inl ⟨rfl, h⟩⟩)
      · next more e₁ r₁ hne hread =>
        cases h
        exact .inr (.inr ⟨body, w, more, e, r', hsetup, hread, .inr ⟨hne, rfl, rfl, rfl⟩⟩)

theorem resume_asked (hresume : resume net artifact m i data n r = (result, e, r')) :
    r.wire.asked <+: r'.wire.asked := by
  induction i generalizing data n r with
  | zero =>
    cases hresume
    exact List.prefix_refl _
  | succ i ih =>
    rcases resume_cases hresume with ⟨w, hsetup, hrest⟩ | ⟨body, w, hsetup, -, -, rfl⟩ |
      ⟨body, w, more, e₁, r₁, hsetup, hread, hrest⟩
    · exact (setup_asked hsetup).trans (ih hrest)
    · exact setup_asked hsetup
    · have hasked : r₁.wire.asked = w.asked := readBody_asked hread
      refine (setup_asked hsetup).trans (hasked ▸ ?_)
      rcases hrest with ⟨-, hrest⟩ | ⟨-, -, -, rfl⟩
      · exact ih hrest
      · exact List.prefix_refl _

/-- The loop delivers the next bytes behind those that the buffer holds. -/
theorem resume_spec (hprecise : Precise artifact server) (hr : r.Sound artifact)
    (hdata : data <+: artifact.drop start) (hoffset : r.offset = start + data.length)
    (hresume : resume net artifact m i data n r = (result, e, r'))
    (hconforms : Conforms server r'.wire.asked) :
    r'.Sound artifact ∧ result <+: artifact.drop start ∧ r'.offset = start + result.length ∧
      (e = .eof → r'.offset = artifact.length) := by
  induction i generalizing data n r with
  | zero =>
    cases hresume
    exact ⟨hr, hdata, hoffset, nofun⟩
  | succ i ih =>
    rcases resume_cases hresume with ⟨w, hsetup, hrest⟩ | ⟨body, w, hsetup, rfl, rfl, rfl⟩ |
      ⟨body, w, more, e₁, r₁, hsetup, hread, hrest⟩
    · have hr' : Sound artifact { r with wire := w } := ⟨hr.body, hr.bound⟩
      exact ih hr' hdata hoffset hrest
    · -- A server that conforms supports range requests.
      cases (setup_some hsetup hconforms fun hwhole => hprecise _ hwhole hr.bound).2
    · have hasked : r₁.wire.asked = w.asked := readBody_asked hread
      have hafter : r₁.wire.asked <+: r'.wire.asked := by
        rcases hrest with ⟨-, hrest⟩ | ⟨-, -, -, rfl⟩
        · exact resume_asked hrest
        · exact List.prefix_refl _
      have hsetup' := setup_some hsetup (hconforms.of_initial (hasked ▸ hafter)) fun hwhole =>
        hprecise _ hwhole hr.bound
      have hsound : Sound artifact { r with body, broken := false, wire := w } :=
        ⟨hsetup'.1, hr.bound⟩
      have hdelivers := readBody_spec hsound hread
      have hoffset' : r₁.offset = r.offset + more.length := hdelivers.offset
      have hmore : data ++ more <+: artifact.drop start := by
        rcases hdata with ⟨rest, hrest'⟩
        have hrest'' : artifact.drop r.offset = rest := by
          rw [hoffset, ← List.drop_drop, ← hrest', List.drop_left]
        rw [← hrest']
        exact (List.prefix_append_right_inj data).mpr (hrest'' ▸ hdelivers.next)
      have hoffset'' : r₁.offset = start + (data ++ more).length := by
        rw [hoffset', hoffset, List.length_append]
        omega
      rcases hrest with ⟨rfl, hrest⟩ | ⟨hne, rfl, rfl, rfl⟩
      · exact ih hdelivers.sound hmore hoffset'' hrest
      · exact ⟨hdelivers.sound, hmore, hoffset'', hdelivers.eof⟩

theorem read_asked (hread : read net retryCount artifact m r = (data, e, r')) :
    r.wire.asked <+: r'.wire.asked := by
  unfold read at hread
  split at hread
  · next hbody =>
    rw [← readBody_asked hbody]
    exact resume_asked hread
  · next hbody =>
    cases hread
    exact ⟨[], by rw [List.append_nil, readBody_asked hbody]⟩

/-- **A read** delivers the next bytes of the artifact, if the server is precise wherever the reader
may ask again. -/
theorem read_spec (hprecise : 0 < retryCount → Precise artifact server) (hr : r.Sound artifact)
    (hread : read net retryCount artifact m r = (data, e, r'))
    (hconforms : Conforms server r'.wire.asked) : Delivers artifact r data e r' := by
  unfold read at hread
  split at hread
  · next data' r₁ hbody =>
    have hdelivers := readBody_spec hr hbody
    cases retryCount with
    | zero =>
      cases hread
      exact hdelivers
    | succ i =>
      rcases resume_spec (hprecise (Nat.succ_pos i)) hdelivers.sound hdelivers.next
        hdelivers.offset hread hconforms with ⟨hsound, hnext, hoff, heof⟩
      exact ⟨hsound, hnext, hoff, heof⟩
  · next hbody =>
    cases hread
    exact readBody_spec hr hbody

/-! ## A complete body in the middle -/

/-- A body in one piece. -/
theorem readBody_all {size : Nat} (hbroken : r.broken = false)
    (hchunk : net.chunk r.wire.reads = ⟨size, false, true⟩) (hsize : r.body.length ≤ min m size) :
    readBody net m r = (r.body, .eof, { r with
      offset := r.offset + r.body.length
      body := []
      wire := { r.wire with reads := r.wire.reads + 1 } }) := by
  unfold readBody
  rw [hbroken, hchunk]
  dsimp only
  rw [List.take_of_length_le hsize, List.drop_length]
  simp

/-- A piece of a body, without its end. -/
theorem readBody_part {size : Nat} (hbroken : r.broken = false)
    (hchunk : net.chunk r.wire.reads = ⟨size, false, false⟩) (hm : size ≤ m) (hpos : 0 < size)
    (hsize : size ≤ r.body.length) :
    readBody net m r = (r.body.take size, .ok, { r with
      offset := r.offset + size
      body := r.body.drop size
      wire := { r.wire with reads := r.wire.reads + 1 } }) := by
  have hlen : (r.body.take size).length = size := by
    rw [List.length_take]
    omega
  have hne : r.body.take size ≠ [] := by
    rw [← List.length_pos_iff, hlen]
    exact hpos
  unfold readBody
  rw [hbroken, hchunk]
  dsimp only
  rw [Nat.min_eq_right hm, hlen]
  simp [hne]

/-- A connection that fails before any byte. -/
theorem readBody_cut {size : Nat} {eof : Bool} (hbroken : r.broken = false)
    (hchunk : net.chunk r.wire.reads = ⟨0, true, eof⟩) :
    readBody net size r = ([], .error, { r with
      broken := true
      wire := { r.wire with reads := r.wire.reads + 1 } }) := by
  unfold readBody
  rw [hbroken, hchunk]
  simp

/-- The loop when no request is answered. -/
theorem resume_refused (hreply : ∀ j < i, net.reply (r.wire.requests + j) r.offset = none) :
    resume net artifact m i data n r =
      (data, .error, { r with wire := { r.wire with requests := r.wire.requests + i } }) := by
  induction i generalizing r with
  | zero => rfl
  | succ i ih =>
    have hfirst : setupHttpConnection net artifact r.offset r.wire =
        (none, { r.wire with requests := r.wire.requests + 1 }) := by
      unfold setupHttpConnection
      rw [← Nat.add_zero r.wire.requests, hreply 0 (Nat.succ_pos i)]
    rw [resume, hfirst]
    dsimp only
    rw [ih]
    · simp only [Nat.add_assoc, Nat.add_comm 1 i]
    · intro j hj
      have := hreply (j + 1) (Nat.succ_lt_succ hj)
      rwa [Nat.add_comm j 1, ← Nat.add_assoc] at this

theorem read_all {size : Nat} (hbroken : r.broken = false)
    (hchunk : net.chunk r.wire.reads = ⟨size, false, true⟩) (hsize : r.body.length ≤ min m size) :
    ∃ r', r.read net retryCount artifact m = (r.body, .eof, r') ∧
      r'.wire.asked = r.wire.asked := by
  unfold read
  rw [readBody_all hbroken hchunk hsize]
  exact ⟨_, rfl, rfl⟩

theorem read_part {size : Nat} (hbroken : r.broken = false)
    (hchunk : net.chunk r.wire.reads = ⟨size, false, false⟩) (hpos : 0 < size)
    (hsize : size ≤ r.body.length) :
    r.read net retryCount artifact size = (r.body.take size, .ok, { r with
      offset := r.offset + size
      body := r.body.drop size
      wire := { r.wire with reads := r.wire.reads + 1 } }) := by
  unfold read
  rw [readBody_part hbroken hchunk (Nat.le_refl _) hpos hsize]

/-- The connection fails before any byte, and no new request is answered. -/
theorem read_refused {eof : Bool} (hbroken : r.broken = false)
    (hchunk : net.chunk r.wire.reads = ⟨0, true, eof⟩)
    (hreply : ∀ j < retryCount, net.reply (r.wire.requests + j) r.offset = none) :
    r.read net retryCount artifact m = ([], .error, { r with
      broken := true
      wire := { r.wire with
        requests := r.wire.requests + retryCount
        reads := r.wire.reads + 1 } }) := by
  unfold read
  rw [readBody_cut hbroken hchunk]
  dsimp only
  rw [resume_refused]
  exact hreply

/-- A body that has failed, and a new one for the start of the artifact. -/
theorem read_again {size : Nat} {status : RangeStatus} (hbroken : r.broken = true)
    (hbody : r.body ≠ []) (hoffset : r.offset = 0)
    (hreply : net.reply r.wire.requests 0 = some ⟨status, true⟩)
    (hchunk : net.chunk r.wire.reads = ⟨size, false, false⟩) (hpos : 0 < size)
    (hsize : size ≤ artifact.length) :
    r.read net (i + 1) artifact size = (artifact.take size, .ok,
      ⟨size, artifact.drop size, false, r.wire.requests + 1, r.wire.reads + 1,
        r.wire.asked ++ [(0, ⟨status, true⟩)]⟩) := by
  have hfailed : readBody net size r = ([], .error, r) := by
    unfold readBody
    rw [if_pos ⟨hbroken, hbody⟩]
  have hpart := readBody_part (m := size)
    (r := ⟨0, artifact, false, r.wire.requests + 1, r.wire.reads,
      r.wire.asked ++ [(0, ⟨status, true⟩)]⟩) rfl hchunk (Nat.le_refl _) hpos hsize
  unfold read
  rw [hfailed]
  dsimp only
  rw [resume, setupHttpConnection, hoffset, hreply]
  dsimp only
  rw [HttpReply.body_zero, if_pos rfl, List.length_nil, Nat.sub_zero, hpart]
  simp

/-- The connection fails before any byte, and the new request is answered with the complete body: it
goes on in the buffer as if it were the rest. -/
theorem read_splice {eof : Bool} (hbroken : r.broken = false)
    (hcut : net.chunk r.wire.reads = ⟨0, true, eof⟩)
    (hreply : net.reply r.wire.requests r.offset = some ⟨.whole, true⟩)
    (hall : net.chunk (r.wire.reads + 1) = ⟨artifact.length, false, true⟩) :
    ∃ r', r.read net (i + 1) artifact artifact.length = (artifact, .eof, r') ∧
      r'.wire.asked = r.wire.asked ++ [(r.offset, ⟨.whole, true⟩)] := by
  unfold read
  rw [readBody_cut hbroken hcut]
  dsimp only
  rw [resume, setupHttpConnection]
  dsimp only
  rw [hreply]
  dsimp only [HttpReply.body]
  rw [if_pos rfl, readBody_all rfl hall (by simp)]
  exact ⟨_, rfl, rfl⟩

end HttpReader

end Rdfm.Linux
