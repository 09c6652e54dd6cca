import Rdfm.Lib.Transition
import Rdfm.Linux.CachedFetcher

/-!
# The cache directory

A cache file is named by the hash of the `header.tar` that `GetHeader` finds at the start of the
artifact. `GetHeader` drops its errors, so every artifact in which it finds none has the name of the
empty header; and a download resumes at the length of the file, also where the file is complete.

An artifact can be fetched from an honest server exactly if its cache file is missing or holds a
proper prefix of it (`fetchable_iff`). A run of attempts keeps it that way as long as each attempt that
uses the file is installed, gets no bytes, or gets some but not all of the same artifact from a server
that honours ranges (`fetchable_after_attempts`).
-/

namespace Rdfm.Linux

open Rdfm.Lib

/-- What `GetHeader` returns for a whole artifact; `none` if its header is cut off. -/
def Tar.header (tar : Tar) (artifact : Bytes) : Option Bytes :=
  match tar.getHeader artifact true with
  | .returned header => some header
  | _ => none

/-! ## Attempts -/

/-- One update: what is fetched and how, in which sizes the stream is read before the update stops,
and whether it was installed. -/
structure Attempt where
  artifact : Bytes
  net : Net
  retryCount : Nat
  httpCacheEnabled : Bool
  headerSizes : List Nat
  sizes : List Nat
  installed : Bool

section Attempts

variable {κ : Type} [DecidableEq κ] (tar : Tar) (sha1 : Bytes → κ)

/-- The cache file of an attempt, the bytes it got, and the stream it leaves. -/
def Attempt.run (cache : CacheDir κ) (a : Attempt) : Option (Option κ × Bytes × UpdateStream) :=
  match fetchAndCacheUpdate tar sha1 a.net a.retryCount a.artifact a.httpCacheEnabled a.headerSizes
    cache with
  | none => none
  | some (key, stream) =>
    match stream.readAll a.net a.retryCount a.artifact a.sizes with
    | (data, _, stream) => some (key, data, stream)

/-- `DoInstall`, as far as the cache directory goes: `CleanCache` after an installation. -/
def Attempt.next (cache : CacheDir κ) (a : Attempt) : CacheDir κ :=
  match a.run tar sha1 cache with
  | none => cache
  | some (key, _, stream) =>
    if a.installed then fun _ => none
    else
      match key with
      | none => cache
      | some key => Function.update cache key (some stream.cache)

end Attempts

/-! ## Reading without connection errors -/

/-- 206 for a start inside the artifact, 416 behind it, and no connection errors. -/
structure Reliable (artifact : Bytes) (net : Net) : Prop where
  serves : ∀ n offset, offset < artifact.length → net.reply n offset = some ⟨.suffix, true⟩
  refuses : ∀ n offset, artifact.length ≤ offset → net.reply n offset = none
  chunk : ∀ n, (net.chunk n).error = false ∧ 0 < (net.chunk n).size

/-- Enough reads for the whole artifact. -/
structure Drains (artifact : Bytes) (sizes : List Nat) : Prop where
  pos : ∀ m ∈ sizes, 0 < m
  enough : artifact.length + 2 ≤ sizes.length

/-- Reads of one byte each. -/
theorem drains_replicate (artifact : Bytes) :
    Drains artifact (List.replicate (artifact.length + 2) 1) where
  pos m hm := by
    rw [List.eq_of_mem_replicate hm]
    exact Nat.one_pos
  enough := Nat.le_of_eq List.length_replicate.symm

section Reading

variable {net : Net} (retryCount : Nat) {artifact : Bytes} {m : Nat} {r : HttpReader}
  {sizes : List Nat}

/-- A read takes bytes off the body, or is at its end. -/
theorem HttpReader.read_reliable (hnet : Reliable artifact net) (hm : 0 < m)
    (hbroken : r.broken = false) :
    ∃ data e r', r.read net retryCount artifact m = (data, e, r') ∧ data ++ r'.body = r.body ∧
      r'.broken = false ∧
      (e = .eof ∧ r'.body = [] ∨ e = .ok ∧ r'.body.length < r.body.length) := by
  rcases hnet.chunk r.wire.reads with ⟨herror, hsize⟩
  have htake : ∀ n, r.body.take n ++ r.body.drop (r.body.take n).length = r.body := fun n =>
    List.prefix_iff_eq_append.mp (List.take_prefix n r.body)
  have hless : r.body ≠ [] →
      (r.body.drop (r.body.take (min m (net.chunk r.wire.reads).size)).length).length <
        r.body.length := by
    intro hne
    have := List.length_pos_iff.mpr hne
    rw [List.length_drop, List.length_take]
    omega
  unfold HttpReader.read HttpReader.readBody
  rw [hbroken]
  dsimp only
  rw [herror]
  simp only [Bool.false_eq_true, false_and, if_false]
  by_cases hend : r.body.drop (r.body.take (min m (net.chunk r.wire.reads).size)).length = [] ∧
      (r.body.take (min m (net.chunk r.wire.reads).size) = [] ∨
        (net.chunk r.wire.reads).eof = true)
  · rw [if_pos hend]
    exact ⟨_, _, _, rfl, htake _, rfl, .inl ⟨rfl, hend.1⟩⟩
  · rw [if_neg hend]
    refine ⟨_, _, _, rfl, htake _, rfl, .inr ⟨rfl, hless ?_⟩⟩
    intro hnil
    rw [hnil] at hend
    exact hend ⟨List.drop_nil, .inl List.take_nil⟩

namespace UpdateStream

variable {s : UpdateStream}

/-- The reads that a stream needs at most before its last. -/
def remaining (s : UpdateStream) : Nat :=
  s.first.length + (if s.firstReaderEOF then 0 else 1) + s.image.body.length

theorem read_reliable (hnet : Reliable artifact net) (hm : 0 < m) (hbroken : s.image.broken = false)
    (heof : s.firstReaderEOF → s.first = []) :
    ∃ data e s', s.read net retryCount artifact m = (data, e, s') ∧
      data ++ (s'.first ++ s'.image.body) = s.first ++ s.image.body ∧ s'.image.broken = false ∧
      (s'.firstReaderEOF → s'.first = []) ∧
      (e = .eof ∧ s'.first ++ s'.image.body = [] ∨ e = .ok ∧ s'.remaining < s.remaining) := by
  unfold UpdateStream.read
  by_cases hfirst : s.firstReaderEOF
  · rw [if_pos hfirst]
    rcases HttpReader.read_reliable retryCount hnet hm hbroken with
      ⟨data, e, image, hread, hbody, hbroken', hend⟩
    rw [hread]
    refine ⟨_, _, _, rfl, ?_, hbroken', heof, ?_⟩
    · dsimp only
      rw [heof hfirst, List.nil_append, List.nil_append, hbody]
    · rcases hend with ⟨rfl, hnil⟩ | ⟨rfl, hless⟩
      · left
        dsimp only
        rw [heof hfirst, hnil]
        exact ⟨rfl, rfl⟩
      · right
        refine ⟨rfl, ?_⟩
        dsimp only [remaining]
        rw [if_pos hfirst]
        omega
  · rw [if_neg hfirst]
    unfold UpdateStream.readFirst
    by_cases hnil : s.first = []
    · rw [if_pos hnil]
      refine ⟨_, _, _, rfl, ?_, hbroken, ?_, .inr ⟨rfl, ?_⟩⟩
      · dsimp only
        rw [hnil]
        rfl
      · intro _
        dsimp only
        rw [hnil]
        rfl
      · dsimp only [remaining]
        rw [if_neg hfirst, if_pos (decide_eq_true (.inr hm)), hnil, List.drop_nil]
        omega
    · rw [if_neg hnil]
      have hpos := List.length_pos_iff.mpr hnil
      refine ⟨_, _, _, rfl, ?_, hbroken, nofun, .inr ⟨rfl, ?_⟩⟩
      · dsimp only
        rw [← List.append_assoc, List.prefix_iff_eq_append.mp (List.take_prefix m s.first)]
      · dsimp only [remaining]
        rw [if_neg hfirst, if_neg Bool.false_ne_true, List.length_drop, List.length_take]
        omega

/-- Enough reads get all that is left of the first reader and of the body. -/
theorem readAll_drains (hnet : Reliable artifact net) (hbroken : s.image.broken = false)
    (heof : s.firstReaderEOF → s.first = []) (hpos : ∀ m ∈ sizes, 0 < m)
    (henough : s.remaining < sizes.length) :
    ∃ s', s.readAll net retryCount artifact sizes = (s.first ++ s.image.body, .eof, s') := by
  induction sizes generalizing s with
  | nil => exact absurd henough (Nat.not_lt_zero _)
  | cons m sizes ih =>
    rcases read_reliable retryCount hnet (hpos m (List.mem_cons_self ..)) hbroken heof
      with ⟨data, e, s₁, hread, hsplit, hbroken₁, heof₁, ⟨rfl, hnil⟩ | ⟨rfl, hless⟩⟩
    · rw [hnil, List.append_nil] at hsplit
      rw [readAll, hread]
      exact ⟨s₁, by rw [hsplit]⟩
    · have henough₁ : s₁.remaining < sizes.length := by
        rw [List.length_cons] at henough
        omega
      rcases ih hbroken₁ heof₁ (fun m hm => hpos m (List.mem_cons_of_mem _ hm)) henough₁ with
        ⟨s', hall⟩
      rw [readAll, hread]
      dsimp only
      rw [hall]
      exact ⟨s', by rw [hsplit]⟩

end UpdateStream

/-! ## The header of an artifact -/

section Header

variable {tar : Tar} {p saved header : Bytes}

/-- What `GetHeader` returns before the end of the stream, it returns for the whole. -/
theorem Tar.getHeader_returned (h : tar.getHeader p false = .returned header) (q : Bytes) :
    tar.getHeader (p ++ q) true = .returned header := by
  unfold Tar.getHeader at h ⊢
  cases hscan : tar.scan p with
  | more =>
    rw [hscan] at h
    cases h
  | ended =>
    rw [hscan] at h
    rw [tar.stable p q (by rw [hscan]; exact nofun), hscan]
    exact h
  | header start size =>
    rw [hscan] at h
    rw [tar.stable p q (by rw [hscan]; exact nofun), hscan]
    dsimp only at h ⊢
    by_cases hle : start + size ≤ p.length
    · rw [if_pos hle] at h
      rw [List.length_append, if_pos (by omega), ← h]
      congr 1
      rw [List.drop_append_of_le_length (by omega), List.take_append_of_le_length]
      rw [List.length_drop]
      omega
    · rw [if_neg hle] at h
      cases h

theorem Tar.getHeader_not_hangs : tar.getHeader p false ≠ .hangs := by
  unfold Tar.getHeader
  intro h
  split at h
  · cases h
  · cases h
  · split at h <;> cases h

theorem Tar.getHeader_ended : tar.getHeader p true ≠ .reading := by
  unfold Tar.getHeader
  intro h
  split at h
  · cases h
  · cases h
  · split at h <;> cases h

theorem Tar.header_eq_some : tar.header p = some header ↔ tar.getHeader p true = .returned header := by
  unfold Tar.header
  cases tar.getHeader p true <;> simp

variable (tar) in
/-- Without connection errors, `GetHeader` returns the header of the artifact. -/
theorem readHeader_reliable (hnet : Reliable artifact net) (hbroken : r.broken = false)
    (hsaved : saved ++ r.body = artifact) (hpos : ∀ m ∈ sizes, 0 < m)
    (henough : r.body.length < sizes.length) :
    readHeader tar net retryCount artifact sizes saved r = none ∧ tar.header artifact = none ∨
      ∃ header saved' r', readHeader tar net retryCount artifact sizes saved r =
          some (header, saved', r') ∧ tar.header artifact = some header ∧
        saved' ++ r'.body = artifact ∧ r'.broken = false := by
  induction sizes generalizing r saved with
  | nil => exact absurd henough (Nat.not_lt_zero _)
  | cons m sizes ih =>
    rcases HttpReader.read_reliable retryCount hnet (hpos m (List.mem_cons_self ..))
      hbroken with ⟨data, e, r₁, hread, hsplit, hbroken₁, hend⟩
    have hwhole : (saved ++ data) ++ r₁.body = artifact := by
      rw [List.append_assoc, hsplit, hsaved]
    rw [readHeader, hread]
    dsimp only
    rcases hend with ⟨rfl, hnil⟩ | ⟨rfl, hless⟩
    · have hall : saved ++ data = artifact := by
        rwa [hnil, List.append_nil] at hwhole
      rw [decide_eq_true (by decide : ReadEnd.eof ≠ .ok), hall]
      unfold Tar.header
      cases hget : tar.getHeader artifact true with
      | reading => exact absurd hget Tar.getHeader_ended
      | hangs => exact .inl ⟨rfl, rfl⟩
      | returned header =>
        exact .inr ⟨header, artifact, r₁, rfl, rfl, by rw [hnil, List.append_nil], hbroken₁⟩
    · rw [decide_eq_false (by exact fun h => h rfl : ¬ ReadEnd.ok ≠ .ok)]
      cases hget : tar.getHeader (saved ++ data) false with
      | reading =>
        exact ih hbroken₁ hwhole (fun m hm => hpos m (List.mem_cons_of_mem _ hm))
          (by rw [List.length_cons] at henough; omega)
      | hangs => exact absurd hget Tar.getHeader_not_hangs
      | returned header =>
        have := Tar.getHeader_returned hget r₁.body
        rw [hwhole] at this
        exact .inr ⟨header, _, r₁, rfl, Tar.header_eq_some.mpr this, hwhole, hbroken₁⟩

end Header

/-! ## What can be fetched -/

theorem newReader_reliable (hnet : Reliable artifact net) {offset : Nat} (w : Wire)
    (hoffset : offset < artifact.length) :
    ∃ r, newRdfmHttpUpdateReader net artifact offset w = (some (r, true), r.wire) ∧
      r.body = artifact.drop offset ∧ r.broken = false := by
  unfold newRdfmHttpUpdateReader setupHttpConnection
  rw [hnet.serves _ _ hoffset]
  exact ⟨_, rfl, rfl, rfl⟩

theorem newReader_refused (hnet : Reliable artifact net) {offset : Nat} (w : Wire)
    (hoffset : artifact.length ≤ offset) :
    ∃ w', newRdfmHttpUpdateReader net artifact offset w = (none, w') := by
  unfold newRdfmHttpUpdateReader setupHttpConnection
  rw [hnet.refuses _ _ hoffset]
  exact ⟨_, rfl⟩

/-- What a download over a cache file gets: the file, and the artifact from its length on. -/
def resumedBytes (artifact : Bytes) : Option Bytes → Bytes
  | none => artifact
  | some file => file ++ artifact.drop file.length

variable {κ : Type} {tar : Tar} {sha1 : Bytes → κ} {cache : CacheDir κ} {headerSizes : List Nat}
  {header : Bytes}

/-- Without connection errors, a download over a cache file that is shorter than the artifact. -/
theorem fetch_reliable (hnet : Reliable artifact net) (hne : artifact ≠ [])
    (hsizes : Drains artifact headerSizes) (hheader : tar.header artifact = some header)
    (hcached : ∀ file ∈ cache (sha1 header), file.length < artifact.length) :
    ∃ key stream, fetchAndCacheUpdate tar sha1 net retryCount artifact true headerSizes cache =
        some (key, stream) ∧
      ∀ sizes, Drains artifact sizes → ∃ s', stream.readAll net retryCount artifact sizes =
        (resumedBytes artifact (cache (sha1 header)), .eof, s') := by
  rcases newReader_reliable hnet .start (List.length_pos_iff.mpr hne) with ⟨r, hnew, hbody, hbroken⟩
  have hstart : [] ++ r.body = artifact := by
    rw [hbody]
    rfl
  have hshort : r.body.length < headerSizes.length := by
    have := hsizes.enough
    rw [hbody, List.length_drop]
    omega
  rcases readHeader_reliable retryCount tar hnet hbroken hstart hsizes.pos hshort with
    ⟨-, hnone⟩ | ⟨header', saved, r₁, hread, hheader', hsplit, hbroken₁⟩
  · rw [hheader] at hnone
    cases hnone
  rw [hheader] at hheader'
  cases hheader'
  unfold fetchAndCacheUpdate
  rw [hnew]
  simp only [Bool.not_true, Bool.or_self, Bool.false_eq_true, if_false]
  rw [hread]
  dsimp only
  cases hfile : cache (sha1 header) with
  | none =>
    refine ⟨_, _, rfl, fun sizes hsizes => ?_⟩
    have hlen := congrArg List.length hsplit
    rw [List.length_append] at hlen
    rcases UpdateStream.readAll_drains (s := ⟨.created, saved, false, r₁, []⟩)
      retryCount hnet hbroken₁ nofun hsizes.pos (by
        have := hsizes.enough
        simp only [UpdateStream.remaining, Bool.false_eq_true, if_false]
        omega) with ⟨s', hall⟩
    exact ⟨s', by rw [hall]; dsimp only; rw [hsplit]; rfl⟩
  | some file =>
    have hlt := hcached file hfile
    rcases newReader_reliable hnet r₁.wire hlt with ⟨r₂, hnew₂, hbody₂, hbroken₂⟩
    dsimp only
    rw [hnew₂]
    refine ⟨_, _, rfl, fun sizes hsizes => ?_⟩
    rcases UpdateStream.readAll_drains (s := ⟨.resumed, file, false, r₂, file⟩)
      retryCount hnet hbroken₂ nofun hsizes.pos (by
        have := hsizes.enough
        simp only [UpdateStream.remaining, Bool.false_eq_true, if_false, hbody₂, List.length_drop]
        omega) with ⟨s', hall⟩
    exact ⟨s', by rw [hall]; dsimp only; rw [hbody₂]; rfl⟩

/-- What a fetch has got past without connection errors: the header of the artifact, and the request
behind its cache file. -/
theorem of_fetch_reliable (hnet : Reliable artifact net) (hne : artifact ≠ [])
    (hsizes : Drains artifact headerSizes) {key : Option κ} {stream : UpdateStream}
    (hfetch : fetchAndCacheUpdate tar sha1 net retryCount artifact true headerSizes cache =
      some (key, stream)) :
    ∃ header, tar.header artifact = some header ∧
      ∀ file ∈ cache (sha1 header), file.length < artifact.length := by
  rcases newReader_reliable hnet .start (List.length_pos_iff.mpr hne) with ⟨r, hnew, hbody, hbroken⟩
  have hstart : [] ++ r.body = artifact := by
    rw [hbody]
    rfl
  have hshort : r.body.length < headerSizes.length := by
    have := hsizes.enough
    rw [hbody, List.length_drop]
    omega
  unfold fetchAndCacheUpdate at hfetch
  rw [hnew] at hfetch
  simp only [Bool.not_true, Bool.or_self, Bool.false_eq_true, if_false] at hfetch
  rcases readHeader_reliable retryCount tar hnet hbroken hstart hsizes.pos hshort with
    ⟨hread, -⟩ | ⟨header, saved, r₁, hread, hheader, -, -⟩
  · rw [hread] at hfetch
    cases hfetch
  · refine ⟨header, hheader, fun file hfile => ?_⟩
    rw [hread] at hfetch
    dsimp only at hfetch
    rw [hfile] at hfetch
    -- A complete file, or a longer one, is refused.
    by_contra hge
    rcases newReader_refused hnet r₁.wire (Nat.le_of_not_lt hge) with ⟨w', hnew'⟩
    dsimp only at hfetch
    rw [hnew'] at hfetch
    cases hfetch

variable (tar sha1 cache headerSizes) in
/-- With caching off, the cache directory is not used. -/
theorem fetch_direct (hnet : Reliable artifact net) (hne : artifact ≠ []) :
    ∃ stream, fetchAndCacheUpdate tar sha1 net retryCount artifact false headerSizes cache =
        some (none, stream) ∧
      ∀ sizes, Drains artifact sizes → ∃ s',
        stream.readAll net retryCount artifact sizes = (artifact, .eof, s') := by
  rcases newReader_reliable hnet .start (List.length_pos_iff.mpr hne) with ⟨r, hnew, hbody, hbroken⟩
  unfold fetchAndCacheUpdate
  rw [hnew]
  refine ⟨_, rfl, fun sizes hsizes => ?_⟩
  rcases UpdateStream.readAll_drains (s := ⟨.direct, [], true, r, []⟩) retryCount
    hnet hbroken (fun _ => rfl) hsizes.pos (by
      have := hsizes.enough
      simp only [UpdateStream.remaining, if_true, hbody, List.length_drop, List.length_nil]
      omega) with ⟨s', hall⟩
  exact ⟨s', by rw [hall]; dsimp only; rw [hbody]; rfl⟩

end Reading

section Fetchable

variable {κ : Type} (tar : Tar) (sha1 : Bytes → κ)

/-- Every fetch from an honest server without connection errors opens, and yields the artifact. -/
def Fetchable (cache : CacheDir κ) (artifact : Bytes) : Prop :=
  ∀ net retryCount httpCacheEnabled headerSizes sizes, Reliable artifact net →
    Drains artifact headerSizes → Drains artifact sizes →
    ∃ key stream s',
      fetchAndCacheUpdate tar sha1 net retryCount artifact httpCacheEnabled headerSizes cache =
        some (key, stream) ∧
      stream.readAll net retryCount artifact sizes = (artifact, .eof, s')

/-- The cache file is missing, or holds a proper prefix of the artifact. -/
def Resumable (artifact : Bytes) (cached : Option Bytes) : Prop :=
  ∀ file ∈ cached, file <+: artifact ∧ file.length < artifact.length

/-- A server that serves the artifact byte by byte. -/
def plainNet (artifact : Bytes) : Net where
  reply _ offset := if offset < artifact.length then some ⟨.suffix, true⟩ else none
  chunk _ := ⟨1, false, true⟩

theorem plainNet_reliable (artifact : Bytes) : Reliable artifact (plainNet artifact) where
  serves _ _ h := if_pos h
  refuses _ _ h := if_neg (Nat.not_lt.mpr h)
  chunk _ := ⟨rfl, Nat.one_pos⟩

variable {tar sha1} {cache : CacheDir κ} {artifact : Bytes}

/-- A cache file that can be fetched with is a proper prefix: a longer one is refused, and the bytes of
another artifact would be delivered. -/
theorem resumable_of_fetchable (h : Fetchable tar sha1 cache artifact) :
    artifact ≠ [] ∧ ∃ header, tar.header artifact = some header ∧
      Resumable artifact (cache (sha1 header)) := by
  have hsizes := drains_replicate artifact
  have hnet := plainNet_reliable artifact
  obtain ⟨key, stream, s', hopen, hread⟩ := h (plainNet artifact) 0 true _ _ hnet hsizes hsizes
  have hne : artifact ≠ [] := by
    rintro rfl
    cases hopen
  obtain ⟨header, hheader, hshort⟩ := of_fetch_reliable 0 hnet hne hsizes hopen
  refine ⟨hne, header, hheader, fun file hfile => ⟨?_, hshort file hfile⟩⟩
  obtain ⟨key', stream', hopen', hdrains⟩ := fetch_reliable 0 hnet hne hsizes hheader hshort
  rw [hopen] at hopen'
  cases hopen'
  obtain ⟨s'', hread'⟩ := hdrains _ hsizes
  rw [hread, hfile] at hread'
  have hbytes : artifact = file ++ artifact.drop file.length := congrArg Prod.fst hread'
  exact ⟨_, hbytes.symm⟩

theorem fetchable_of_resumable {header : Bytes} (hne : artifact ≠ [])
    (hheader : tar.header artifact = some header)
    (hresumable : Resumable artifact (cache (sha1 header))) : Fetchable tar sha1 cache artifact := by
  intro net retryCount httpCacheEnabled headerSizes sizes hnet hheaderSizes hsizes
  cases httpCacheEnabled with
  | false =>
    obtain ⟨stream, hopen, hdrains⟩ :=
      fetch_direct retryCount tar sha1 cache headerSizes hnet hne
    obtain ⟨s', hread⟩ := hdrains sizes hsizes
    exact ⟨none, stream, s', hopen, hread⟩
  | true =>
    obtain ⟨key, stream, hopen, hdrains⟩ := fetch_reliable retryCount hnet hne hheaderSizes hheader
      (fun f hf => (hresumable f hf).2)
    obtain ⟨s', hread⟩ := hdrains sizes hsizes
    refine ⟨key, stream, s', hopen, ?_⟩
    rw [hread]
    congr 1
    cases hcached : cache (sha1 header) with
    | none => rfl
    | some file => exact List.prefix_iff_eq_append.mp (hresumable file hcached).1

/-- **What can be fetched**: the artifacts that are not empty and whose header is not cut off, if the
cache file with the name of the header is missing or can be resumed. -/
theorem fetchable_iff :
    Fetchable tar sha1 cache artifact ↔
      artifact ≠ [] ∧ ∃ header, tar.header artifact = some header ∧
        Resumable artifact (cache (sha1 header)) := by
  constructor
  · exact resumable_of_fetchable
  · rintro ⟨hne, header, hheader, hresumable⟩
    exact fetchable_of_resumable hne hheader hresumable

end Fetchable

/-! ## Runs of attempts -/

section Runs

open HttpReader

variable {net : Net} {retryCount : Nat} {artifact file delivered data : Bytes} {m : Nat} {e : ReadEnd}
  {s s' : UpdateStream} {sizes : List Nat}

namespace UpdateStream

/-- What the cache file holds: what was delivered, or the file as it was as long as that is read. -/
structure Teed (file delivered : Bytes) (s : UpdateStream) : Prop where
  created : s.kind = .created → s.cache = delivered
  reading : s.kind = .resumed → ¬ s.firstReaderEOF → s.cache = file ∧ delivered ++ s.first = file
  resumed : s.kind = .resumed → s.firstReaderEOF → s.cache = delivered

theorem Teed.read (h : Teed file delivered s)
    (hread : s.read net retryCount artifact m = (data, e, s')) :
    Teed file (delivered ++ data) s' := by
  unfold UpdateStream.read at hread
  split at hread
  · next heof =>
    cases himage : s.image.read net retryCount artifact m with
    | mk data' rest =>
      rw [himage] at hread
      cases hread
      refine ⟨fun hk => ?_, fun _ hne => absurd heof hne, fun hk _ => ?_⟩
      · dsimp only at hk ⊢
        rw [if_neg (by rw [hk]; exact nofun), h.created hk]
      · dsimp only at hk ⊢
        rw [if_neg (by rw [hk]; exact nofun), h.resumed hk heof]
  · next heof =>
    cases hfirst : s.readFirst m with
    | mk data' firstEOF =>
      rw [hfirst] at hread
      cases hread
      have hdata : data ++ s.first.drop data.length = s.first ∧ (firstEOF → s.first = []) := by
        unfold UpdateStream.readFirst at hfirst
        split at hfirst
        · next hnil =>
          cases hfirst
          exact ⟨rfl, fun _ => hnil⟩
        · cases hfirst
          exact ⟨List.prefix_iff_eq_append.mp (List.take_prefix m s.first), nofun⟩
      refine ⟨fun hk => ?_, fun hk _ => ?_, fun hk hfirstEOF => ?_⟩
      · dsimp only at hk ⊢
        rw [if_pos hk, h.created hk]
      · rcases h.reading hk heof with ⟨hcache, hsplit⟩
        dsimp only at hk ⊢
        rw [if_neg (by rw [hk]; exact nofun), List.append_assoc, hdata.1]
        exact ⟨hcache, hsplit⟩
      · rcases h.reading hk heof with ⟨hcache, hsplit⟩
        have hnil := hdata.2 hfirstEOF
        have hdataNil : data = [] := by
          rw [hnil] at hdata
          exact (List.append_eq_nil_iff.mp hdata.1).1
        rw [hnil, List.append_nil] at hsplit
        dsimp only at hk ⊢
        rw [if_neg (by rw [hk]; exact nofun), hdataNil, List.append_nil, hcache, hsplit]

theorem Teed.readAll (h : Teed file delivered s)
    (hread : s.readAll net retryCount artifact sizes = (data, e, s')) :
    Teed file (delivered ++ data) s' := by
  induction sizes generalizing s delivered data with
  | nil =>
    cases hread
    rwa [List.append_nil]
  | cons m sizes ih =>
    rw [UpdateStream.readAll] at hread
    split at hread
    · next data₁ s₁ hone =>
      cases hrest : s₁.readAll net retryCount artifact sizes with
      | mk more rest =>
        rw [hrest] at hread
        cases hread
        rw [← List.append_assoc]
        exact ih (h.read hone) hrest
    · next hone =>
      cases hread
      exact h.read hone

theorem read_kind (hread : s.read net retryCount artifact m = (data, e, s')) : s'.kind = s.kind := by
  unfold UpdateStream.read at hread
  split at hread <;> cases hread <;> rfl

theorem readAll_kind (hread : s.readAll net retryCount artifact sizes = (data, e, s')) :
    s'.kind = s.kind := by
  induction sizes generalizing s data with
  | nil =>
    cases hread
    rfl
  | cons m sizes ih =>
    rw [UpdateStream.readAll] at hread
    split at hread
    · next data₁ s₁ hone =>
      cases hrest : s₁.readAll net retryCount artifact sizes with
      | mk more rest =>
        rw [hrest] at hread
        cases hread
        rw [ih hrest, read_kind hone]
    · next hone =>
      cases hread
      exact read_kind hone

end UpdateStream

/-- What the cache file holds then: all that was delivered, or still only the file as it was. -/
theorem UpdateStream.Teed.cache_cases (h : s.Teed file delivered) (hkind : s.kind ≠ .direct) :
    s.cache = delivered ∨ s.kind = .resumed ∧ s.cache = file := by
  cases hk : s.kind with
  | direct => exact absurd hk hkind
  | created => exact .inl (h.created hk)
  | resumed =>
    by_cases heof : s.firstReaderEOF
    · exact .inl (h.resumed hk heof)
    · exact .inr ⟨rfl, (h.reading hk heof).1⟩

variable {κ : Type} {tar : Tar} {sha1 : Bytes → κ} {cache : CacheDir κ} {httpCacheEnabled : Bool}
  {headerSizes : List Nat} {name : κ}

/-- A stream with a cache file starts at the start of the file that was there. -/
theorem fetch_teed
    (hfetch : fetchAndCacheUpdate tar sha1 net retryCount artifact httpCacheEnabled headerSizes cache =
      some (some name, s)) :
    s.kind ≠ .direct ∧ s.Teed ((cache name).getD []) [] ∧
      (s.kind = .resumed → cache name = some ((cache name).getD [])) := by
  unfold fetchAndCacheUpdate at hfetch
  split at hfetch
  · cases hfetch
  · split at hfetch
    · cases hfetch
    · split at hfetch
      · cases hfetch
      · dsimp only at hfetch
        split at hfetch
        · cases hfetch
          exact ⟨nofun, ⟨fun _ => rfl, nofun, nofun⟩, nofun⟩
        · next file hfile =>
          split at hfetch
          · cases hfetch
          · cases hfetch
            rw [hfile]
            exact ⟨nofun, ⟨nofun, fun _ _ => ⟨rfl, rfl⟩, nofun⟩, fun _ => rfl⟩

/-- Complete bodies answer requests from the start only. -/
def Ranged (offset : Nat) (status : RangeStatus) : Prop :=
  status = .whole → offset = 0

/-- **One download** over a cache file that can be resumed leaves one that can be resumed, if it gets
no bytes, or not all of the artifact and no complete body in the middle of it. -/
theorem Resumable.download {fetched : Bytes} (h : Resumable artifact (cache name))
    (hne : artifact ≠ [])
    (hfetch : fetchAndCacheUpdate tar sha1 net retryCount fetched httpCacheEnabled headerSizes cache =
      some (some name, s))
    (hread : s.readAll net retryCount fetched sizes = (data, e, s'))
    (hdata : data = [] ∨ fetched = artifact ∧ Conforms Ranged s'.image.wire.asked ∧
      data.length < artifact.length) : Resumable artifact (some s'.cache) := by
  rcases fetch_teed hfetch with ⟨hkind, hteed, hresumed⟩
  have hkind' : s'.kind ≠ .direct := by
    rw [UpdateStream.readAll_kind hread]
    exact hkind
  rintro _ ⟨⟩
  rcases (hteed.readAll hread).cache_cases hkind' with hcache | ⟨hk, hcache⟩
  · rcases hdata with rfl | ⟨rfl, hconforms, hlt⟩
    · rw [hcache]
      exact ⟨List.nil_prefix, List.length_pos_iff.mpr hne⟩
    · refine ⟨?_, by rwa [hcache]⟩
      have hprecise : 0 < retryCount → Precise fetched Ranged := fun _ _ hwhole _ => hwhole rfl
      have hflows := fetch_flows hprecise hfetch
        (by rintro - _ ⟨⟩ f hf; exact ⟨(h f hf).1, fun hwhole => hwhole rfl⟩)
        (hconforms.of_initial (UpdateStream.readAll_asked hread))
      exact (hflows.readAll hprecise hread hconforms).cache hkind'
  · rw [UpdateStream.readAll_kind hread] at hk
    rw [hcache]
    exact h _ (hresumed hk)

end Runs

section Attempts

variable {κ : Type} {tar : Tar} {sha1 : Bytes → κ} {cache : CacheDir κ} {a : Attempt}

variable (tar sha1) in
/-- An attempt that leaves the cache file of an artifact fit for it: it uses another cache file, or
none; it is installed, which removes all of them; it gets no bytes; or it gets some but not all bytes
of the same artifact, and no request behind the start is answered with the complete body. -/
def Harmless (artifact header : Bytes) (cache : CacheDir κ) (a : Attempt) : Prop :=
  ∀ data stream, a.run tar sha1 cache = some (some (sha1 header), data, stream) →
    a.installed = true ∨ data = [] ∨
      a.artifact = artifact ∧ HttpReader.Conforms Ranged stream.image.wire.asked ∧
        data.length < artifact.length

/-- **One attempt** keeps an artifact resumable. -/
theorem Resumable.next [DecidableEq κ] {artifact header : Bytes} (hne : artifact ≠ [])
    (h : Resumable artifact (cache (sha1 header))) (ha : Harmless tar sha1 artifact header cache a) :
    Resumable artifact (a.next tar sha1 cache (sha1 header)) := by
  unfold Attempt.next
  cases hrun : a.run tar sha1 cache with
  | none => exact h
  | some result =>
    rcases result with ⟨key, data, stream⟩
    dsimp only
    by_cases hinstalled : a.installed = true
    · rw [if_pos hinstalled]
      exact nofun
    · rw [if_neg hinstalled]
      cases key with
      | none => exact h
      | some name =>
        dsimp only
        by_cases heq : sha1 header = name
        · subst heq
          have hdata := (ha data stream hrun).resolve_left hinstalled
          unfold Attempt.run at hrun
          split at hrun
          · cases hrun
          · next key s hfetch =>
            cases hrun
            rw [Function.update_self]
            exact h.download hne hfetch rfl hdata
        · rw [Function.update_of_ne heq]
          exact h

end Attempts

/-- **Cached state does not block or mix updates**, whatever attempts were made before, as long as each
of them left the artifact's cache file fit for it. -/
theorem fetchable_after_attempts {κ : Type} [DecidableEq κ] (tar : Tar) (sha1 : Bytes → κ)
    (artifact header : Bytes) (hne : artifact ≠ []) (hheader : tar.header artifact = some header)
    (attempts : List Attempt)
    (hrun : Along (Attempt.next tar sha1) (Harmless tar sha1 artifact header) (fun _ => none)
      attempts) :
    Fetchable tar sha1 (attempts.foldl (Attempt.next tar sha1) fun _ => none) artifact := by
  refine fetchable_iff.mpr ⟨hne, header, hheader, ?_⟩
  have hstep (cache : CacheDir κ) (a : Attempt) (h : Resumable artifact (cache (sha1 header)))
      (ha : Harmless tar sha1 artifact header cache a) :
      Resumable artifact (a.next tar sha1 cache (sha1 header)) := h.next hne ha
  have hnone : Resumable artifact none := nofun
  exact Along.foldl_invariant hstep hnone hrun

/-! ## Artifacts that fit in one block -/

/-- An attempt from a server that serves byte by byte, stopped after so many reads. -/
def stoppedAttempt (artifact : Bytes) (reads : Nat) : Attempt where
  artifact := artifact
  net := plainNet artifact
  retryCount := 3
  httpCacheEnabled := true
  headerSizes := [1, 1, 1, 1, 1]
  sizes := List.replicate reads 1
  installed := false

/-- Another artifact that is installed, and two attempts, the one stopped after one byte and the other
after two. -/
theorem fetchable_after_two_attempts :
    Fetchable shortTar sha1Empty
      ([{ stoppedAttempt [7, 8, 9] 5 with installed := true }, stoppedAttempt [1, 2, 3] 1,
        stoppedAttempt [1, 2, 3] 2].foldl (Attempt.next shortTar sha1Empty) fun _ => none)
      [1, 2, 3] := by
  refine fetchable_after_attempts shortTar sha1Empty [1, 2, 3] [] nofun rfl _
    ⟨fun _ _ _ => .inl rfl, ?_, ?_, trivial⟩
  · intro data stream h
    cases h
    exact .inr (.inr ⟨rfl, HttpReader.Conforms.nil.snoc nofun, by decide⟩)
  · intro data stream h
    cases h
    exact .inr (.inr ⟨rfl, (HttpReader.Conforms.nil.snoc nofun).snoc nofun, by decide⟩)

/-- A completely cached artifact cannot be fetched again; and behind two cached bytes of an artifact
without a header, the rest of another one is fetched. -/
theorem cached_state_blocks_and_mixes :
    (fetchAndCacheUpdate shortTar sha1Empty (plainNet [1, 2, 3]) 3 [1, 2, 3] true [1, 1, 1, 1, 1]
        ((stoppedAttempt [1, 2, 3] 5).next shortTar sha1Empty fun _ => none) = none ∧
      ¬ Fetchable shortTar sha1Empty
        ((stoppedAttempt [1, 2, 3] 5).next shortTar sha1Empty fun _ => none) [1, 2, 3]) ∧
    (∃ key stream s',
      fetchAndCacheUpdate shortTar sha1Empty (plainNet [7, 8, 9]) 3 [7, 8, 9] true [1, 1, 1, 1, 1]
        ((stoppedAttempt [1, 2, 3] 2).next shortTar sha1Empty fun _ => none) = some (key, stream) ∧
      stream.readAll (plainNet [7, 8, 9]) 3 [7, 8, 9] [1, 1, 1, 1, 1] = ([1, 2, 9], .eof, s')) ∧
      ¬ Fetchable shortTar sha1Empty
        ((stoppedAttempt [1, 2, 3] 2).next shortTar sha1Empty fun _ => none) [7, 8, 9] := by
  refine ⟨⟨rfl, ?_⟩, ⟨_, _, _, rfl, rfl⟩, ?_⟩
  · intro h
    rcases fetchable_iff.mp h with ⟨-, header, -, hresumable⟩
    exact absurd (hresumable [1, 2, 3] rfl).2 (by decide)
  · intro h
    rcases fetchable_iff.mp h with ⟨-, header, -, hresumable⟩
    exact absurd (hresumable [1, 2] rfl).1 (by decide)

end Rdfm.Linux
