import Rdfm.Linux.HttpReader

/-!
# Updates through the cache

`FetchAndCacheUpdateFromURI`: the header of the artifact is read from a first connection and saved,
its hash names the cache file, and the caller gets a stream. Without a cache file the stream is what
was saved, then the connection, and everything read goes into a new file. With one, it is the file,
then a second connection that starts at the file's length and is appended to it.

`GetHeader` drops its errors: what it returns depends on how the first connection went, so the name of
the cache file does too. Which sizes it and the caller read in, and what the network does, is
arbitrary. Over every directory that earlier downloads of the artifact may have left, the caller gets
the artifact and the cache file holds a prefix of it, for every way the download can go, exactly if
the server answers no request behind the start with the complete body (`download_faithful_iff`).

The tar format and the hash are parameters.
-/

namespace Rdfm.Linux

open Rdfm.Lib

/-! ## The stream -/

inductive StreamKind where
  /-- The connection alone: caching is off. -/
  | direct
  /-- The saved header, then the connection, all of it teed into a new file. -/
  | created
  /-- The cache file, then the connection teed into it. -/
  | resumed
deriving DecidableEq, Repr

structure UpdateStream where
  kind : StreamKind
  /-- What is unread of `ReadSaver`, or of the cache file. -/
  first : Bytes
  firstReaderEOF : Bool
  image : HttpReader
  /-- What the cache file contains. -/
  cache : Bytes
deriving DecidableEq, Repr

section Stream

variable (net : Net) (retryCount : Nat) (artifact : Bytes)

namespace UpdateStream

/-- `firstReader.Read`: the bytes, and whether it is at its end. A file does not look for its end with
an empty buffer. -/
def readFirst (m : Nat) (s : UpdateStream) : Bytes × Bool :=
  if s.first = [] then ([], s.kind = .created ∨ 0 < m) else (s.first.take m, false)

/-- `Read` of the stream. -/
def read (m : Nat) (s : UpdateStream) : Bytes × ReadEnd × UpdateStream :=
  if s.firstReaderEOF then
    match s.image.read net retryCount artifact m with
    | (data, e, image) =>
      let cache := if s.kind = .direct then s.cache else s.cache ++ data
      (data, e, { s with image, cache })
  else
    match s.readFirst m with
    | (data, firstReaderEOF) =>
      let cache := if s.kind = .created then s.cache ++ data else s.cache
      (data, .ok, { s with first := s.first.drop data.length, firstReaderEOF, cache })

/-- Reads into buffers of these sizes, up to the first that ends the stream. -/
def readAll : List Nat → UpdateStream → Bytes × ReadEnd × UpdateStream
  | [], s => ([], .ok, s)
  | m :: sizes, s =>
    match s.read net retryCount artifact m with
    | (data, .ok, s) =>
      match readAll sizes s with
      | (more, e, s) => (data ++ more, e, s)
    | (data, e, s) => (data, e, s)

end UpdateStream

end Stream

/-! ## The header -/

/-- What `tar.Reader` has found in the bytes so far. -/
inductive TarScan where
  | more
  /-- The archive is at its end, or it is not an archive. -/
  | ended
  /-- The entry `header.tar`: where its data starts, and its size. -/
  | header (start size : Nat)
deriving DecidableEq, Repr

/-- The entries of an archive are found from the start, whatever follows them, and none before any
bytes. -/
structure Tar where
  scan : Bytes → TarScan
  empty : scan [] = .more
  stable : ∀ p q, scan p ≠ .more → scan (p ++ q) = scan p

inductive HeaderRead where
  | reading
  /-- The loop of `GetHeader` over a header that is cut off. -/
  | hangs
  | returned (header : Bytes)
deriving DecidableEq, Repr

/-- `GetHeader` when it has read these bytes; `ended` is an error or the end of the stream. Without a
header it returns no bytes, and the caller drops the error. -/
def Tar.getHeader (tar : Tar) (saved : Bytes) (ended : Bool) : HeaderRead :=
  match tar.scan saved with
  | .more => if ended then .returned [] else .reading
  | .ended => .returned []
  | .header start size =>
    if start + size ≤ saved.length then .returned ((saved.drop start).take size)
    else if ended then .hangs
    else .reading

/-! ## The download -/

/-- The cache files, by the hash in their names. -/
abbrev CacheDir (κ : Type) := κ → Option Bytes

section Fetch

variable {κ : Type} (tar : Tar) (sha1 : Bytes → κ) (net : Net) (retryCount : Nat) (artifact : Bytes)

/-- `GetHeader` over `readSplitter`, in reads of these sizes: the header, what `ReadSaver` has got, and
the connection behind it; `none` if it does not return in these reads. -/
def readHeader : List Nat → Bytes → HttpReader → Option (Bytes × Bytes × HttpReader)
  | [], _, _ => none
  | m :: sizes, saved, r =>
    match r.read net retryCount artifact m with
    | (data, e, r) =>
      match tar.getHeader (saved ++ data) (e ≠ .ok) with
      | .returned header => some (header, saved ++ data, r)
      | .hangs => none
      | .reading => readHeader sizes (saved ++ data) r

/-- `FetchAndCacheUpdateFromURI` over the cache directory: the name of the cache file, if caching is
on, and the stream. -/
def fetchAndCacheUpdate (httpCacheEnabled : Bool) (headerSizes : List Nat) (cache : CacheDir κ) :
    Option (Option κ × UpdateStream) :=
  match newRdfmHttpUpdateReader net artifact 0 .start with
  | (none, _) => none
  | (some (image, supportsRangeRequests), _) =>
    if !supportsRangeRequests || !httpCacheEnabled then
      some (none, ⟨.direct, [], true, image, []⟩)
    else
      match readHeader tar net retryCount artifact headerSizes [] image with
      | none => none
      | some (header, saved, image) =>
        let cacheFile := sha1 header
        match cache cacheFile with
        | none => some (some cacheFile, ⟨.created, saved, false, image, []⟩)
        | some file =>
          match newRdfmHttpUpdateReader net artifact file.length image.wire with
          | (none, _) => none
          | (some (image, _), _) => some (some cacheFile, ⟨.resumed, file, false, image, file⟩)

end Fetch

/-! ## What the caller gets -/

section Flow

variable {net : Net} {retryCount : Nat} {artifact delivered data : Bytes} {m : Nat} {e : ReadEnd}
  {s s' : UpdateStream} {server : Nat → RangeStatus → Prop}

open HttpReader

namespace UpdateStream

/-- The bytes delivered so far, what is left of the first reader and what the connection still has to
deliver are the artifact; the cache file is as far as the stream that is teed into it. -/
structure Flows (artifact delivered : Bytes) (s : UpdateStream) : Prop where
  image : s.image.Sound artifact
  split : delivered ++ (s.first ++ artifact.drop s.image.offset) = artifact
  eof : s.firstReaderEOF → s.first = []
  created : s.kind = .created → s.cache = delivered
  resumed : s.kind = .resumed → s.cache = artifact.take s.image.offset

/-- At the end of the stream the artifact was delivered; the cache file holds a prefix of it. -/
structure Right (artifact delivered : Bytes) (e : ReadEnd) (s : UpdateStream) : Prop where
  eof : e = .eof → delivered = artifact
  cache : s.kind ≠ .direct → s.cache <+: artifact

theorem Flows.cache_initial (h : Flows artifact delivered s) (hkind : s.kind ≠ .direct) :
    s.cache <+: artifact := by
  cases hk : s.kind with
  | direct => exact absurd hk hkind
  | created =>
    rw [h.created hk]
    exact ⟨_, h.split⟩
  | resumed =>
    rw [h.resumed hk]
    exact List.take_prefix _ _

theorem read_asked (hread : s.read net retryCount artifact m = (data, e, s')) :
    s.image.wire.asked <+: s'.image.wire.asked := by
  unfold UpdateStream.read at hread
  split at hread
  · cases himage : s.image.read net retryCount artifact m with
    | mk data' rest =>
      rw [himage] at hread
      cases hread
      exact HttpReader.read_asked himage
  · cases hread
    exact List.prefix_refl _

/-- A read of the first reader. -/
theorem Flows.readFirst (h : Flows artifact delivered s) (heof : ¬ s.firstReaderEOF)
    (hread : s.read net retryCount artifact m = (data, e, s')) :
    e = .ok ∧ Flows artifact (delivered ++ data) s' := by
  unfold UpdateStream.read at hread
  rw [if_neg heof] at hread
  cases hfirst : s.readFirst m with
  | mk data' firstEOF =>
    rw [hfirst] at hread
    cases hread
    have hdata : data ++ s.first.drop data.length = s.first ∧
        (firstEOF → s.first.drop data.length = []) := by
      unfold UpdateStream.readFirst at hfirst
      split at hfirst
      · next hnil =>
        cases hfirst
        rw [hnil]
        exact ⟨rfl, fun _ => rfl⟩
      · cases hfirst
        exact ⟨List.prefix_iff_eq_append.mp (List.take_prefix m s.first), nofun⟩
    refine ⟨rfl, h.image, ?_, hdata.2, fun hk => ?_, fun hk => ?_⟩
    · dsimp only
      rw [List.append_assoc, ← List.append_assoc data, hdata.1]
      exact h.split
    · dsimp only at hk ⊢
      rw [if_pos hk, h.created hk]
    · dsimp only at hk ⊢
      have hne : s.kind ≠ .created := by
        rw [hk]
        exact nofun
      rw [if_neg hne]
      exact h.resumed hk

/-- A read of the connection. -/
theorem Flows.readImage (h : Flows artifact delivered s) (heof : s.firstReaderEOF)
    (hprecise : 0 < retryCount → Precise artifact server)
    (hread : s.read net retryCount artifact m = (data, e, s'))
    (hconforms : Conforms server s'.image.wire.asked) :
    Right artifact (delivered ++ data) e s' ∧ (e = .ok → Flows artifact (delivered ++ data) s') := by
  unfold UpdateStream.read at hread
  rw [if_pos heof] at hread
  cases himage : s.image.read net retryCount artifact m with
  | mk data' rest =>
    rcases rest with ⟨e', image⟩
    rw [himage] at hread
    cases hread
    have hdelivers := read_spec hprecise h.image himage hconforms
    have hsplit : delivered ++ artifact.drop s.image.offset = artifact := by
      have := h.split
      rwa [h.eof heof, List.nil_append] at this
    have hlen : delivered.length = s.image.offset := by
      have hle := h.image.bound
      have := congrArg List.length hsplit
      rw [List.length_append, List.length_drop] at this
      omega
    have hdelivered : delivered = artifact.take s.image.offset := by
      rw [← hlen, ← hsplit, List.take_left]
    have hdata : delivered ++ data <+: artifact := by
      conv_rhs => rw [← hsplit]
      exact (List.prefix_append_right_inj delivered).mpr hdelivers.next
    have hwhole : delivered ++ data = artifact.take image.offset := by
      rcases hdata with ⟨rest, hrest⟩
      rw [hdelivers.offset, ← hlen, ← List.length_append, ← hrest, List.take_left]
    refine ⟨⟨fun he => ?_, fun hk => ?_⟩, fun he => ?_⟩
    · rw [hwhole, hdelivers.eof he, List.take_length]
    · dsimp only at hk ⊢
      rw [if_neg hk]
      cases hkind : s.kind with
      | direct => exact absurd hkind hk
      | created =>
        rw [h.created hkind]
        exact hdata
      | resumed =>
        rw [h.resumed hkind, ← hdelivered]
        exact hdata
    · refine ⟨hdelivers.sound, ?_, h.eof, fun hk => ?_, fun hk => ?_⟩
      · dsimp only
        rw [h.eof heof, List.nil_append, hwhole, List.take_append_drop]
      · dsimp only at hk ⊢
        have hnd : s.kind ≠ .direct := by
          rw [hk]
          exact nofun
        rw [if_neg hnd, h.created hk]
      · dsimp only at hk ⊢
        have hnd : s.kind ≠ .direct := by
          rw [hk]
          exact nofun
        rw [if_neg hnd, h.resumed hk, ← hdelivered]
        exact hwhole

theorem Flows.read (h : Flows artifact delivered s)
    (hprecise : 0 < retryCount → Precise artifact server)
    (hread : s.read net retryCount artifact m = (data, e, s'))
    (hconforms : Conforms server s'.image.wire.asked) :
    Right artifact (delivered ++ data) e s' ∧ (e = .ok → Flows artifact (delivered ++ data) s') := by
  by_cases heof : s.firstReaderEOF
  · exact h.readImage heof hprecise hread hconforms
  · rcases h.readFirst heof hread with ⟨rfl, hflows⟩
    exact ⟨⟨nofun, hflows.cache_initial⟩, fun _ => hflows⟩

variable {sizes : List Nat}

theorem readAll_asked (hread : s.readAll net retryCount artifact sizes = (data, e, s')) :
    s.image.wire.asked <+: s'.image.wire.asked := by
  induction sizes generalizing s data with
  | nil =>
    cases hread
    exact List.prefix_refl _
  | cons m sizes ih =>
    rw [readAll] at hread
    split at hread
    · next data₁ s₁ hone =>
      cases hrest : s₁.readAll net retryCount artifact sizes with
      | mk more rest =>
        rw [hrest] at hread
        cases hread
        exact (read_asked hone).trans (ih hrest)
    · next hone =>
      cases hread
      exact read_asked hone

/-- **Reading the stream** delivers the artifact. -/
theorem Flows.readAll (h : Flows artifact delivered s)
    (hprecise : 0 < retryCount → Precise artifact server)
    (hread : s.readAll net retryCount artifact sizes = (data, e, s'))
    (hconforms : Conforms server s'.image.wire.asked) :
    Right artifact (delivered ++ data) e s' := by
  induction sizes generalizing s delivered data with
  | nil =>
    cases hread
    exact ⟨nofun, h.cache_initial⟩
  | cons m sizes ih =>
    rw [UpdateStream.readAll] at hread
    split at hread
    · next data₁ s₁ hone =>
      cases hrest : s₁.readAll net retryCount artifact sizes with
      | mk more rest =>
        rw [hrest] at hread
        cases hread
        have hconforms₁ := hconforms.of_initial (readAll_asked hrest)
        have := ih ((h.read hprecise hone hconforms₁).2 rfl) hrest
        rwa [List.append_assoc] at this
    · next hone =>
      cases hread
      exact (h.read hprecise hone hconforms).1

end UpdateStream

variable {κ : Type} {tar : Tar} {sha1 : Bytes → κ} {headerSizes : List Nat}

theorem readHeader_asked {r r' : HttpReader} {header saved saved' : Bytes}
    (hread : readHeader tar net retryCount artifact headerSizes saved r = some (header, saved', r')) :
    r.wire.asked <+: r'.wire.asked := by
  induction headerSizes generalizing r saved with
  | nil => cases hread
  | cons m sizes ih =>
    rw [readHeader] at hread
    cases hone : r.read net retryCount artifact m with
    | mk data rest =>
      rcases rest with ⟨e, r₁⟩
      rw [hone] at hread
      dsimp only at hread
      have hinit := HttpReader.read_asked hone
      split at hread
      · cases hread
        exact hinit
      · cases hread
      · exact hinit.trans (ih hread)

/-- What is saved of the header goes on in the connection. -/
theorem readHeader_spec {r r' : HttpReader} {header saved saved' : Bytes}
    (hprecise : 0 < retryCount → Precise artifact server) (hr : r.Sound artifact)
    (hsaved : saved ++ artifact.drop r.offset = artifact)
    (hread : readHeader tar net retryCount artifact headerSizes saved r = some (header, saved', r'))
    (hconforms : Conforms server r'.wire.asked) :
    r'.Sound artifact ∧ saved' ++ artifact.drop r'.offset = artifact := by
  induction headerSizes generalizing r saved with
  | nil => cases hread
  | cons m sizes ih =>
    rw [readHeader] at hread
    cases hone : r.read net retryCount artifact m with
    | mk data rest =>
      rcases rest with ⟨e, r₁⟩
      rw [hone] at hread
      dsimp only at hread
      -- Both ways on, the bytes of this read are behind what was saved.
      have hnext (h : Conforms server r₁.wire.asked) :
          r₁.Sound artifact ∧ (saved ++ data) ++ artifact.drop r₁.offset = artifact := by
        have hdelivers := read_spec hprecise hr hone h
        refine ⟨hdelivers.sound, ?_⟩
        rcases hdelivers.next with ⟨tail, htail⟩
        rw [hdelivers.offset, ← List.drop_drop, ← htail, List.drop_left, List.append_assoc, htail]
        exact hsaved
      split at hread
      · cases hread
        exact hnext hconforms
      · cases hread
      · have h₁ := hnext (hconforms.of_initial (readHeader_asked hread))
        exact ih h₁.1 h₁.2 hread

/-- A new reader of a precise server is where it asked to be. -/
theorem newReader_sound {offset : Nat} {w w' : Wire} {r : HttpReader} {supports : Bool}
    (h : newRdfmHttpUpdateReader net artifact offset w = (some (r, supports), w'))
    (hconforms : Conforms server r.wire.asked) (hbound : offset ≤ artifact.length)
    (hprecise : server offset .whole → offset = 0) :
    r.Sound artifact ∧ r.offset = offset ∧ supports = true := by
  unfold newRdfmHttpUpdateReader at h
  split at h
  · cases h
  · next body supports' wire hsetup =>
    cases h
    rcases setup_some hsetup hconforms hprecise with ⟨hbody, hsupports⟩
    exact ⟨⟨hbody, hbound⟩, rfl, hsupports⟩

/-! ## Every download -/

/-- The cache files that earlier downloads of the artifact may have left: prefixes of these lengths.
Under which names they are depends on how `GetHeader` ended in those downloads. -/
def CachedPrefixes (artifact : Bytes) (cached : Set Nat) (cache : CacheDir κ) : Prop :=
  ∀ name, ∀ file ∈ cache name, ∃ k ∈ cached, file = artifact.take k

/-- The offsets behind the start that a download may have to ask for: the length of a cache file, and
every offset if connections are set up again. -/
def Requested (httpCacheEnabled : Bool) (cached : Set Nat) (retryCount offset : Nat) : Prop :=
  httpCacheEnabled = true ∧ offset ∈ cached ∨ 0 < retryCount

variable (tar sha1) in
/-- However the network behaves within what the server may answer, and in whatever sizes the header
and the stream are read: a stream that reaches `io.EOF` has delivered the artifact, and the cache file
holds a prefix of it all the time. -/
def Faithful (server : Nat → RangeStatus → Prop) (retryCount : Nat) (httpCacheEnabled : Bool)
    (artifact : Bytes) (cache : CacheDir κ) : Prop :=
  ∀ net headerSizes sizes key stream data e stream',
    fetchAndCacheUpdate tar sha1 net retryCount artifact httpCacheEnabled headerSizes cache =
      some (key, stream) →
    stream.readAll net retryCount artifact sizes = (data, e, stream') →
    Conforms server stream'.image.wire.asked →
    (e = .eof → data = artifact) ∧ (stream'.kind ≠ .direct → stream'.cache <+: artifact)

variable {httpCacheEnabled : Bool} {cache : CacheDir κ} {cached : Set Nat} {key : Option κ}
  {stream : UpdateStream}

/-- The stream starts at the start of the artifact, if the cache file that it finds is a prefix and the
request behind that is not answered with the complete body. -/
theorem fetch_flows (hprecise : 0 < retryCount → Precise artifact server)
    (hfetch : fetchAndCacheUpdate tar sha1 net retryCount artifact httpCacheEnabled headerSizes cache =
      some (key, stream))
    (hcached : httpCacheEnabled = true → ∀ name ∈ key, ∀ file ∈ cache name,
      file <+: artifact ∧ (server file.length .whole → file.length = 0))
    (hconforms : Conforms server stream.image.wire.asked) : stream.Flows artifact [] := by
  unfold fetchAndCacheUpdate at hfetch
  split at hfetch
  · cases hfetch
  · next image supports wire hnew =>
    split at hfetch
    · cases hfetch
      rcases newReader_sound hnew hconforms (Nat.zero_le _) (fun _ => rfl) with
        ⟨hsound, hoffset, -⟩
      refine ⟨hsound, ?_, fun _ => rfl, nofun, nofun⟩
      dsimp only
      rw [hoffset]
      rfl
    · next hcache =>
      have henabled : httpCacheEnabled = true := by
        simp only [Bool.or_eq_true, not_or, Bool.not_eq_true', Bool.not_eq_false] at hcache
        exact hcache.2
      split at hfetch
      · cases hfetch
      · next header saved image₁ hheader =>
        dsimp only at hfetch
        split at hfetch
        · cases hfetch
          rcases newReader_sound hnew (hconforms.of_initial (readHeader_asked hheader))
            (Nat.zero_le _) (fun _ => rfl) with ⟨hsound, hoffset, -⟩
          have hstart : [] ++ artifact.drop image.offset = artifact := by
            rw [hoffset]
            rfl
          rcases readHeader_spec hprecise hsound hstart hheader hconforms with ⟨hsound₁, hsplit⟩
          exact ⟨hsound₁, hsplit, nofun, fun _ => rfl, nofun⟩
        · next file hfile =>
          split at hfetch
          · cases hfetch
          · next image₂ supports₂ wire₂ hresume =>
            cases hfetch
            rcases hcached henabled _ rfl file hfile with ⟨hfront, hwhole⟩
            rcases newReader_sound hresume hconforms hfront.length_le hwhole with
              ⟨hsound, hoffset, -⟩
            refine ⟨hsound, ?_, nofun, nofun, fun _ => ?_⟩
            · dsimp only
              rw [List.nil_append, hoffset, List.prefix_iff_eq_append.mp hfront]
            · dsimp only
              rw [hoffset]
              exact List.prefix_iff_eq_take.mp hfront

/-- **A faithful download**, over one cache directory. -/
theorem faithful_of_precise (hcached : CachedPrefixes artifact cached cache)
    (hlt : ∀ k ∈ cached, k < artifact.length)
    (hserver : ∀ offset, 0 < offset → offset ≤ artifact.length →
      Requested httpCacheEnabled cached retryCount offset → ¬ server offset .whole) :
    Faithful tar sha1 server retryCount httpCacheEnabled artifact cache := by
  intro net headerSizes sizes key stream data e stream' hfetch hread hconforms
  have hprecise : 0 < retryCount → Precise artifact server := by
    intro hretry offset hwhole hle
    by_contra hne
    exact hserver offset (Nat.pos_of_ne_zero hne) hle (.inr hretry) hwhole
  have hfiles : httpCacheEnabled = true → ∀ name ∈ key, ∀ file ∈ cache name,
      file <+: artifact ∧ (server file.length .whole → file.length = 0) := by
    intro henabled name _ file hfile
    rcases hcached name file hfile with ⟨k, hk, rfl⟩
    have hlen : (artifact.take k).length = k := by
      have := hlt k hk
      rw [List.length_take]
      omega
    refine ⟨List.take_prefix _ _, fun hwhole => ?_⟩
    rw [hlen] at hwhole ⊢
    by_contra hne
    exact hserver k (Nat.pos_of_ne_zero hne) (Nat.le_of_lt (hlt k hk)) (.inl ⟨henabled, hk⟩) hwhole
  have hflows := fetch_flows hprecise hfetch hfiles
    (hconforms.of_initial (UpdateStream.readAll_asked hread))
  have hright := hflows.readAll hprecise hread hconforms
  exact ⟨hright.eof, hright.cache⟩

/-! ## A complete body behind the start -/

/-- Replies and reads in turn; the reads behind them are of a body in one piece. -/
def scriptedNet (replies : List (Option RangeStatus)) (chunks : List Chunk) (size : Nat) : Net where
  reply n _ := (replies[n]?.getD none).map fun status => ⟨status, true⟩
  chunk n := chunks[n]?.getD ⟨size, false, true⟩

namespace UpdateStream

theorem read_of_eof {image : HttpReader} (heof : s.firstReaderEOF = true)
    (himage : s.image.read net retryCount artifact m = (data, e, image)) :
    ∃ cache, s.read net retryCount artifact m = (data, e, { s with image, cache }) := by
  unfold UpdateStream.read
  rw [if_pos heof, himage]
  exact ⟨_, rfl⟩

/-- A stream whose first reader is read to its end, and behind it the connection. -/
theorem readAll_resumed {image : HttpReader} (hkind : s.kind = .resumed)
    (heof : s.firstReaderEOF = false)
    (himage : s.image.read net retryCount artifact m = (data, .eof, image)) :
    ∃ s', s.readAll net retryCount artifact [s.first.length, 1, m] = (s.first ++ data, .eof, s') ∧
      s'.image = image := by
  have hne : ¬ s.kind = .created := by
    rw [hkind]
    exact nofun
  have hfirst :
      s.read net retryCount artifact s.first.length = (s.first, .ok, { s with first := [] }) := by
    unfold UpdateStream.read UpdateStream.readFirst
    rw [heof]
    by_cases hnil : s.first = []
    · simp [hnil, hne]
    · simp [hnil, hne]
  have hsecond : UpdateStream.read net retryCount artifact 1 { s with first := [] } =
      ([], .ok, { s with first := [], firstReaderEOF := true }) := by
    unfold UpdateStream.read UpdateStream.readFirst
    simp [heof, hne]
  have hlast : ∃ cache, UpdateStream.read net retryCount artifact m
      { s with first := [], firstReaderEOF := true } =
      (data, .eof, { s with first := [], firstReaderEOF := true, image, cache }) :=
    read_of_eof rfl himage
  rcases hlast with ⟨cache, hlast⟩
  simp only [readAll, hfirst, hsecond, hlast, List.nil_append]
  exact ⟨_, rfl, rfl⟩

/-- Two reads of the connection alone, the second to its end. -/
theorem readAll_image {image image' : HttpReader} {more : Bytes} {m' : Nat}
    (heof : s.firstReaderEOF = true)
    (himage : s.image.read net retryCount artifact m = (data, .ok, image))
    (hend : image.read net retryCount artifact m' = (more, .eof, image')) :
    ∃ s', s.readAll net retryCount artifact [m, m'] = (data ++ more, .eof, s') ∧
      s'.image = image' := by
  rcases read_of_eof heof himage with ⟨cache, hfirst⟩
  rcases read_of_eof (s := { s with image, cache }) heof hend with ⟨cache', hsecond⟩
  simp only [readAll, hfirst, hsecond]
  exact ⟨_, rfl, rfl⟩

/-- A stream without a saved header. -/
theorem readAll_created {sizes : List Nat} (hnil : s.first = []) (hkind : s.kind = .created)
    (heof : s.firstReaderEOF = false)
    (hread : UpdateStream.readAll net retryCount artifact sizes { s with firstReaderEOF := true } =
      (data, e, s')) : s.readAll net retryCount artifact (1 :: sizes) = (data, e, s') := by
  have hfirst : s.read net retryCount artifact 1 = ([], .ok, { s with firstReaderEOF := true }) := by
    unfold UpdateStream.read UpdateStream.readFirst
    rw [heof]
    simp [hnil, hkind]
  simp only [readAll, hfirst, hread, List.nil_append]

end UpdateStream

/-- A stream that delivers more than the artifact is not faithful. -/
theorem not_faithful_of_longer {sizes : List Nat}
    (hfetch : fetchAndCacheUpdate tar sha1 net retryCount artifact httpCacheEnabled headerSizes cache =
      some (key, stream))
    (hread : stream.readAll net retryCount artifact sizes = (data, .eof, s))
    (hconforms : Conforms server s.image.wire.asked) (hlen : artifact.length < data.length) :
    ¬ Faithful tar sha1 server retryCount httpCacheEnabled artifact cache := by
  intro h
  have heq := (h net headerSizes sizes key stream data .eof s hfetch hread hconforms).1 rfl
  rw [heq] at hlen
  exact Nat.lt_irrefl _ hlen

/-- The first connection of a download, when the server answers. -/
def firstImage (artifact : Bytes) (status : RangeStatus) : HttpReader :=
  ⟨0, HttpReply.body ⟨status, true⟩ artifact 0, false, 1, 0, [(0, ⟨status, true⟩)]⟩

theorem newReader_first {status : RangeStatus} (hreply : net.reply 0 0 = some ⟨status, true⟩) :
    newRdfmHttpUpdateReader net artifact 0 .start =
      (some (firstImage artifact status, true), (firstImage artifact status).wire) := by
  unfold newRdfmHttpUpdateReader setupHttpConnection Wire.start
  dsimp only
  rw [hreply]
  rfl

/-- The connection fails before any byte of the header: `GetHeader` returns no bytes. -/
theorem readHeader_refused {status : RangeStatus} {eof : Bool}
    (hchunk : net.chunk 0 = ⟨0, true, eof⟩) (hrefused : ∀ j < retryCount, net.reply (1 + j) 0 = none) :
    readHeader tar net retryCount artifact [1] [] (firstImage artifact status) =
      some ([], [], { firstImage artifact status with
        broken := true
        wire := ⟨1 + retryCount, 1, [(0, ⟨status, true⟩)]⟩ }) := by
  have hread : (firstImage artifact status).read net retryCount artifact 1 = _ :=
    read_refused rfl hchunk hrefused
  rw [readHeader, hread]
  unfold Tar.getHeader
  simp only [List.append_nil, tar.empty, firstImage]
  rfl

/-- The request for the rest of a cached prefix is answered with the complete body. -/
theorem not_faithful_resumed {k : Nat} (status : RangeStatus) (hstart : server 0 status)
    (hpos : 0 < k) (hk : k < artifact.length) (hwhole : server k .whole)
    (hcache : cache (sha1 []) = some (artifact.take k)) :
    ¬ Faithful tar sha1 server 0 true artifact cache := by
  have hlen : (artifact.take k).length = k := by
    rw [List.length_take]
    omega
  let net := scriptedNet [some status, some .whole] [⟨0, true, true⟩] artifact.length
  let image : HttpReader :=
    ⟨k, artifact, false, 2, 1, [(0, ⟨status, true⟩), (k, ⟨.whole, true⟩)]⟩
  have hnew : newRdfmHttpUpdateReader net artifact 0 .start =
      (some (firstImage artifact status, true), _) := newReader_first rfl
  have hheader : readHeader tar net 0 artifact [1] [] (firstImage artifact status) = _ :=
    readHeader_refused rfl fun j hj => absurd hj (Nat.not_lt_zero j)
  have hfetch : fetchAndCacheUpdate tar sha1 net 0 artifact true [1] cache =
      some (some (sha1 []), ⟨.resumed, artifact.take k, false, image, artifact.take k⟩) := by
    unfold fetchAndCacheUpdate
    rw [hnew]
    simp only [Bool.not_true, Bool.or_self, Bool.false_eq_true, if_false]
    rw [hheader]
    dsimp only
    rw [hcache]
    dsimp only
    rw [hlen]
    rfl
  have hread : ∃ r', image.read net 0 artifact artifact.length = (artifact, .eof, r') ∧
      r'.wire.asked = image.wire.asked :=
    read_all rfl rfl (Nat.le_of_eq (Nat.min_self _).symm)
  rcases hread with ⟨r', hread, hasked⟩
  rcases UpdateStream.readAll_resumed
    (s := ⟨.resumed, artifact.take k, false, image, artifact.take k⟩) rfl rfl hread with
    ⟨s', hall, himage⟩
  refine not_faithful_of_longer hfetch hall ?_ ?_
  · rw [himage, hasked]
    exact (Conforms.nil.snoc hstart).snoc hwhole
  · rw [List.length_append, hlen]
    omega

/-- A connection fails, and the request for the rest is answered with the complete body. -/
theorem not_faithful_restarted {offset : Nat} {status : RangeStatus} (hretry : 0 < retryCount)
    (hstart : server 0 status) (hpos : 0 < offset) (hle : offset ≤ artifact.length)
    (hwhole : server offset .whole) (hcache : httpCacheEnabled = true → cache (sha1 []) = none) :
    ¬ Faithful tar sha1 server retryCount httpCacheEnabled artifact cache := by
  rcases Nat.exists_eq_add_of_lt hretry with ⟨i, rfl⟩
  rw [Nat.zero_add]
  have hlonger : artifact.length < (artifact.take offset ++ artifact).length := by
    rw [List.length_append, List.length_take]
    omega
  cases httpCacheEnabled with
  | false =>
    -- The one connection fails behind the bytes up to the offset.
    let net := scriptedNet [some status, some .whole] [⟨offset, false, false⟩, ⟨0, true, true⟩]
      artifact.length
    have hnew : newRdfmHttpUpdateReader net artifact 0 .start =
        (some (firstImage artifact status, true), _) := newReader_first rfl
    have hfetch : fetchAndCacheUpdate tar sha1 net (i + 1) artifact false [] cache =
        some (none, ⟨.direct, [], true, firstImage artifact status, []⟩) := by
      unfold fetchAndCacheUpdate
      rw [hnew]
      rfl
    have hbody : (firstImage artifact status).body = artifact := HttpReply.body_zero _ _
    have hfirst : (firstImage artifact status).read net (i + 1) artifact offset = _ :=
      read_part rfl rfl hpos (hbody.symm ▸ hle)
    rw [hbody] at hfirst
    let image : HttpReader :=
      ⟨0 + offset, artifact.drop offset, false, 1, 1, [(0, ⟨status, true⟩)]⟩
    have hlast : ∃ r', image.read net (i + 1) artifact artifact.length = (artifact, .eof, r') ∧
        r'.wire.asked = image.wire.asked ++ [(image.offset, ⟨.whole, true⟩)] :=
      read_splice rfl rfl rfl rfl
    rcases hlast with ⟨r', hsplice, hasked⟩
    rcases UpdateStream.readAll_image
      (s := ⟨.direct, [], true, firstImage artifact status, []⟩) rfl hfirst hsplice with
      ⟨s', hall, himage⟩
    refine not_faithful_of_longer hfetch hall ?_ hlonger
    rw [himage, hasked]
    rw [← Nat.zero_add offset] at hwhole
    exact (Conforms.nil.snoc hstart).snoc hwhole
  | true =>
    -- It fails before the header, is set up again, and fails behind the bytes up to the offset.
    let replies := some status :: (List.replicate (i + 1) none ++ [some status, some .whole])
    let net := scriptedNet replies [⟨0, true, true⟩, ⟨offset, false, false⟩, ⟨0, true, true⟩]
      artifact.length
    have hrefused : ∀ j < i + 1, net.reply (1 + j) 0 = none := by
      intro j hj
      simp [net, scriptedNet, replies, Nat.add_comm 1 j, List.getElem?_append, hj]
    have hagain : net.reply (1 + (i + 1)) 0 = some ⟨status, true⟩ := by
      simp [net, scriptedNet, replies, Nat.add_comm 1 (i + 1)]
    have hcomplete : net.reply (1 + (i + 1) + 1) offset = some ⟨.whole, true⟩ := by
      have hindex : 1 + (i + 1) + 1 = i + 2 + 1 := by omega
      simp [net, scriptedNet, replies, hindex]
    have hheader : readHeader tar net (i + 1) artifact [1] [] (firstImage artifact status) = _ :=
      readHeader_refused rfl hrefused
    let broken : HttpReader := { firstImage artifact status with
      broken := true
      wire := ⟨1 + (i + 1), 1, [(0, ⟨status, true⟩)]⟩ }
    have hnew : newRdfmHttpUpdateReader net artifact 0 .start =
        (some (firstImage artifact status, true), _) := newReader_first rfl
    have hfetch : fetchAndCacheUpdate tar sha1 net (i + 1) artifact true [1] cache =
        some (some (sha1 []), ⟨.created, [], false, broken, []⟩) := by
      unfold fetchAndCacheUpdate
      rw [hnew]
      simp only [Bool.not_true, Bool.or_self, Bool.false_eq_true, if_false]
      rw [hheader]
      dsimp only
      rw [hcache rfl]
    have hbody : broken.body ≠ [] := by
      dsimp only [broken, firstImage]
      rw [HttpReply.body_zero, ← List.length_pos_iff]
      omega
    have hfirst : broken.read net (i + 1) artifact offset = _ :=
      read_again rfl hbody rfl hagain rfl hpos hle
    let image : HttpReader := ⟨offset, artifact.drop offset, false, 1 + (i + 1) + 1, 2,
      [(0, ⟨status, true⟩)] ++ [(0, ⟨status, true⟩)]⟩
    have hlast : ∃ r', image.read net (i + 1) artifact artifact.length = (artifact, .eof, r') ∧
        r'.wire.asked = image.wire.asked ++ [(image.offset, ⟨.whole, true⟩)] :=
      read_splice rfl rfl hcomplete rfl
    rcases hlast with ⟨r', hsplice, hasked⟩
    rcases UpdateStream.readAll_image
      (s := ⟨.created, [], true, broken, []⟩) rfl hfirst hsplice with ⟨s', hall, himage⟩
    have hcreated := UpdateStream.readAll_created
      (s := ⟨.created, [], false, broken, []⟩) rfl rfl rfl hall
    refine not_faithful_of_longer hfetch hcreated ?_ hlonger
    rw [himage, hasked]
    exact ((Conforms.nil.snoc hstart).snoc hstart).snoc hwhole

end Flow

/-- **Resumed downloads**, for a server that answers every range request with the suffix or with the
complete body: over every cache directory with prefixes of these lengths they deliver the artifact byte
for byte, and cache a prefix of it, exactly if no request that the download may make behind the start
is answered with the complete body. -/
theorem download_faithful_iff {κ : Type} (tar : Tar) (sha1 : Bytes → κ)
    (server : Nat → RangeStatus → Prop) (artifact : Bytes)
    (hserver : ∀ offset < artifact.length, server offset .suffix ∨ server offset .whole)
    (retryCount : Nat) (httpCacheEnabled : Bool) (cached : Set Nat)
    (hcached : ∀ k ∈ cached, k < artifact.length) :
    (∀ cache : CacheDir κ, CachedPrefixes artifact cached cache →
        Faithful tar sha1 server retryCount httpCacheEnabled artifact cache) ↔
      ∀ offset, 0 < offset → offset ≤ artifact.length →
        Requested httpCacheEnabled cached retryCount offset → ¬ server offset .whole := by
  constructor
  · intro h offset hpos hle hrequested hwhole
    have hstart : ∃ status, server 0 status := by
      rcases hserver 0 (Nat.lt_of_lt_of_le hpos hle) with h | h
      · exact ⟨_, h⟩
      · exact ⟨_, h⟩
    rcases hstart with ⟨status, hstart⟩
    rcases Nat.eq_zero_or_pos retryCount with rfl | hretry
    · rcases hrequested with ⟨rfl, hmem⟩ | hlt
      · -- The prefix is found under the name of the empty header.
        have hfiles : CachedPrefixes (κ := κ) artifact cached fun _ => some (artifact.take offset) := by
          rintro name _ ⟨⟩
          exact ⟨offset, hmem, rfl⟩
        exact not_faithful_resumed status hstart hpos (hcached offset hmem) hwhole rfl (h _ hfiles)
      · exact absurd hlt (Nat.lt_irrefl 0)
    · have hnone : CachedPrefixes (κ := κ) artifact cached fun _ => none := nofun
      exact not_faithful_restarted hretry hstart hpos hle hwhole (fun _ => rfl) (h _ hnone)
  · intro hserver cache hfiles
    exact faithful_of_precise hfiles hcached hserver

/-- An archive of less than 512 bytes: `tar.Reader` finds no entry in it. -/
def shortTar : Tar where
  scan _ := .more
  empty := rfl
  stable _ _ h := absurd rfl h

/-- The hash of the empty header. -/
def sha1Empty (_ : Bytes) : Nat := 0xda39a3ee5e6b4b0d3255bfef95601890afd80709

/-- A server that honours every range, and one cached byte. -/
theorem download_faithful_ranges :
    Faithful shortTar sha1Empty (fun _ status => status = .suffix) 3 true [1, 2, 3]
      fun _ => some [1] := by
  have hfiles : CachedPrefixes (κ := Nat) [1, 2, 3] {1} fun _ => some [1] := by
    rintro name _ ⟨⟩
    exact ⟨1, rfl, rfl⟩
  refine (download_faithful_iff shortTar sha1Empty (fun _ status => status = .suffix) [1, 2, 3]
    (fun _ _ => .inl rfl) 3 true {1} ?_).mpr ?_ _ hfiles
  · rintro _ rfl
    decide
  · intro offset _ _ _ hwhole
    cases hwhole

/-- One byte is cached, and the request for the other two is answered with all three: the stream ends
with four bytes, and so does the cache file. -/
theorem download_splices_complete_body :
    ∃ stream s,
      fetchAndCacheUpdate shortTar sha1Empty
          (scriptedNet [some .suffix, some .whole] [] 3) 0 [1, 2, 3] true [512] (fun _ => some [1]) =
        some (some (sha1Empty []), stream) ∧
      stream.readAll (scriptedNet [some .suffix, some .whole] [] 3) 0 [1, 2, 3] [1, 1, 3] =
        ([1, 1, 2, 3], .eof, s) ∧
      s.cache = [1, 1, 2, 3] ∧
      s.image.wire.asked = [(0, ⟨.suffix, true⟩), (1, ⟨.whole, true⟩)] ∧
      ¬ Faithful shortTar sha1Empty (fun _ _ => True) 0 true [1, 2, 3] fun _ => some [1] := by
  refine ⟨_, _, rfl, rfl, rfl, rfl, ?_⟩
  exact not_faithful_resumed .suffix trivial Nat.one_pos (by decide) trivial rfl

end Rdfm.Linux
