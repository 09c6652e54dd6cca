import Mathlib.Data.List.TakeWhile
import Rdfm.Lib.PosixPath

/-!
# Paths of URLs

What becomes of a rooted path that is joined to the address of a server: characters that no URL has
are dropped, a query and a fragment are cut off, dot segments are resolved; and the server decodes
the percent escapes. A path without such characters and escapes comes back as it is
(`joinedPath_eq_self`, `percentDecode_eq_self`), any other comes back shorter
(`length_joinedPath_lt`, `length_percentDecode_lt`).
-/

namespace Rdfm.Lib

/-! ## Percent escapes -/

def hexValue (c : Char) : Option Nat :=
  if '0' ≤ c ∧ c ≤ '9' then some (c.toNat - '0'.toNat)
  else if 'a' ≤ c ∧ c ≤ 'f' then some (c.toNat - 'a'.toNat + 10)
  else if 'A' ≤ c ∧ c ≤ 'F' then some (c.toNat - 'A'.toNat + 10)
  else none

/-- The byte of an escape with these digits. -/
def escapeByte (a b : Char) : Option UInt8 := do
  return UInt8.ofNat (16 * (← hexValue a) + (← hexValue b))

/-- A character as it stands, or the byte of an escape. -/
def unescape : Text → List (UInt8 ⊕ Char)
  | '%' :: a :: b :: t =>
    match escapeByte a b with
    | some byte => .inl byte :: unescape t
    | none => .inr '%' :: unescape (a :: b :: t)
  | c :: t => .inr c :: unescape t
  | [] => []

def hasEscape : Text → Bool
  | '%' :: a :: b :: t => (escapeByte a b).isSome || hasEscape (a :: b :: t)
  | _ :: t => hasEscape t
  | [] => false

/-- The bytes of a run of escapes are decoded together. -/
def decodeRuns (decode : List UInt8 → Text) : List UInt8 → List (UInt8 ⊕ Char) → Text
  | run, .inl byte :: units => decodeRuns decode (run ++ [byte]) units
  | run, .inr c :: units => decode run ++ c :: decodeRuns decode [] units
  | run, [] => decode run

/-- Percent-decoding, where `decode` is the decoding of bytes. -/
def percentDecode (decode : List UInt8 → Text) (t : Text) : Text :=
  decodeRuns decode [] (unescape t)

section Decode

variable {decode : List UInt8 → Text} {t : Text}

theorem unescape_of_not_hasEscape (h : hasEscape t = false) : unescape t = t.map .inr := by
  fun_induction hasEscape t with
  | case1 a b t ih =>
    obtain ⟨hnone, hrest⟩ := Bool.or_eq_false_iff.mp h
    rw [Option.isSome_eq_false_iff, Option.isNone_iff_eq_none] at hnone
    rw [unescape, hnone]
    dsimp only
    rw [ih hrest]
    rfl
  | case2 c t hc ih =>
    rw [unescape, ih h]
    · rfl
    · exact hc
  | case3 => rfl

theorem decodeRuns_chars (hnil : decode [] = []) (t : Text) :
    decodeRuns decode [] (t.map .inr) = t := by
  induction t with
  | nil => exact hnil
  | cons c t ih =>
    rw [List.map_cons, decodeRuns, hnil, ih]
    rfl

theorem percentDecode_eq_self (hnil : decode [] = []) (h : hasEscape t = false) :
    percentDecode decode t = t := by
  unfold percentDecode
  rw [unescape_of_not_hasEscape h, decodeRuns_chars hnil]

theorem length_unescape_le (t : Text) : (unescape t).length ≤ t.length := by
  fun_induction unescape t with
  | case1 a b t byte hbyte ih =>
    simp only [List.length_cons]
    omega
  | case2 a b t hnone ih =>
    simp only [List.length_cons] at ih ⊢
    omega
  | case3 c t hc ih =>
    simp only [List.length_cons]
    omega
  | case4 => exact Nat.le_refl _

theorem length_unescape_lt (h : hasEscape t = true) : (unescape t).length < t.length := by
  fun_induction hasEscape t with
  | case1 a b t ih =>
    rw [unescape]
    cases hbyte : escapeByte a b with
    | some byte =>
      have hle := length_unescape_le t
      simp only [List.length_cons]
      omega
    | none =>
      rw [hbyte, Option.isSome_none, Bool.false_or] at h
      have hlt := ih h
      simp only [List.length_cons] at hlt ⊢
      omega
  | case2 c t hc ih =>
    have hlt := ih h
    rw [unescape]
    · simp only [List.length_cons]
      omega
    · exact hc
  | case3 => cases h

variable (hdecode : ∀ run, (decode run).length ≤ run.length)
include hdecode

theorem length_decodeRuns_le (run : List UInt8) (units : List (UInt8 ⊕ Char)) :
    (decodeRuns decode run units).length ≤ run.length + units.length := by
  fun_induction decodeRuns decode run units with
  | case1 run byte units ih =>
    simp only [List.length_append, List.length_cons, List.length_nil] at ih ⊢
    omega
  | case2 run c units ih =>
    have hrun := hdecode run
    simp only [List.length_append, List.length_cons, List.length_nil] at ih ⊢
    omega
  | case3 run =>
    have hrun := hdecode run
    simpa using hrun

theorem length_percentDecode_le (t : Text) : (percentDecode decode t).length ≤ t.length := by
  have hruns := length_decodeRuns_le hdecode [] (unescape t)
  have hunits := length_unescape_le t
  unfold percentDecode
  simp only [List.length_nil] at hruns
  omega

/-- An escape is longer than what it stands for. -/
theorem length_percentDecode_lt (h : hasEscape t = true) :
    (percentDecode decode t).length < t.length := by
  have hruns := length_decodeRuns_le hdecode [] (unescape t)
  have hunits := length_unescape_lt h
  unfold percentDecode
  simp only [List.length_nil] at hruns
  omega

end Decode

/-! ## Joined paths -/

/-- Characters that are removed from a URL. -/
def removedChar (c : Char) : Bool := c = '\t' ∨ c = '\r' ∨ c = '\n'

/-- Characters that end the path. -/
def endsPath (c : Char) : Bool := c = '?' ∨ c = '#'

/-- The parameters at the end of the last segment, with their semicolon, and what stands before. -/
def splitParams (path : Text) : Text × Text :=
  let params := ((path.splitOn '/').getLastD []).dropWhile fun c => c ≠ ';'
  (path.take (path.length - params.length), if params = [';'] then [] else params)

def resolveSegment (resolved : List Text) (segment : Text) : List Text :=
  if segment = ['.', '.'] then resolved.dropLast
  else if segment = ['.'] then resolved
  else resolved ++ [segment]

/-- The segments without dots. After dots at the end comes an empty segment. -/
def resolveSegments (segments : List Text) : List Text :=
  let resolved := segments.foldl resolveSegment []
  if segments.getLast? = some ['.'] ∨ segments.getLast? = some ['.', '.'] then resolved ++ [[]]
  else resolved

/-- The text of the segments, from the root. -/
def rootedText (segments : List Text) : Text :=
  let joined := ['/'].intercalate segments
  if joined.head? = some '/' then joined else '/' :: joined

/-- The path of a rooted URL that is joined to the address of a server. -/
def joinedPath (url : Text) : Text :=
  let path := (url.filter fun c => !removedChar c).takeWhile fun c => !endsPath c
  let (path, params) := splitParams path
  rootedText (resolveSegments (path.splitOn '/')) ++ params

/-- The query and the fragment of the joined URL; empty ones are dropped. -/
def joinedTail (url : Text) : Text :=
  let rest := (url.filter fun c => !removedChar c).dropWhile fun c => !endsPath c
  let query := (rest.takeWhile fun c => c ≠ '#').drop 1
  let fragment := (rest.dropWhile fun c => c ≠ '#').drop 1
  (if query = [] then [] else '?' :: query) ++ if fragment = [] then [] else '#' :: fragment

section Join

/-- The length of a rooted text of segments, with one more for the root if they have none. -/
def rootedSize : List Text → Nat
  | [] => 1
  | s :: segments => segmentsSize (s :: segments) + if s = [] then 0 else 1

theorem rootedSize_append_le (resolved : List Text) (segment : Text) :
    rootedSize (resolved ++ [segment]) ≤ rootedSize resolved + (segment.length + 1) := by
  cases resolved with
  | nil =>
    simp only [rootedSize, segmentsSize, List.nil_append]
    split <;> omega
  | cons s resolved =>
    simp only [rootedSize, segmentsSize, List.cons_append, segmentsSize_append]
    omega

theorem rootedSize_dropLast_le (resolved : List Text) :
    rootedSize resolved.dropLast ≤ rootedSize resolved + 1 := by
  cases resolved with
  | nil => simp
  | cons s resolved =>
    cases resolved with
    | nil =>
      simp only [rootedSize, segmentsSize, List.dropLast_singleton]
      omega
    | cons s' resolved =>
      have hdrop := segmentsSize_dropLast_le (s' :: resolved)
      rw [List.dropLast_cons_cons]
      simp only [rootedSize, segmentsSize] at hdrop ⊢
      omega

theorem rootedSize_resolveSegment_le (resolved : List Text) (segment : Text) :
    rootedSize (resolveSegment resolved segment) ≤ rootedSize resolved + (segment.length + 1) := by
  unfold resolveSegment
  split
  · have hdrop := rootedSize_dropLast_le resolved
    omega
  · split
    · omega
    · exact rootedSize_append_le resolved segment

theorem rootedSize_foldl_le (segments resolved : List Text) :
    rootedSize (segments.foldl resolveSegment resolved) ≤
      rootedSize resolved + segmentsSize segments := by
  induction segments generalizing resolved with
  | nil => simp [segmentsSize]
  | cons s segments ih =>
    have hstep := rootedSize_resolveSegment_le resolved s
    have hrest := ih (resolveSegment resolved s)
    simp only [List.foldl_cons, segmentsSize]
    omega

/-- An empty segment in the place of dots is no longer than they are. -/
theorem rootedSize_dots_le (resolved : List Text) {segment : Text}
    (h : segment = ['.'] ∨ segment = ['.', '.']) :
    rootedSize (resolveSegment resolved segment ++ [[]]) ≤
      rootedSize resolved + (segment.length + 1) := by
  have happend := rootedSize_append_le (resolveSegment resolved segment) []
  rcases h with rfl | rfl
  · have hstep : resolveSegment resolved ['.'] = resolved := rfl
    rw [hstep] at happend ⊢
    simp only [List.length_nil, List.length_cons] at happend ⊢
    omega
  · have hstep : resolveSegment resolved ['.', '.'] = resolved.dropLast := rfl
    have hdrop := rootedSize_dropLast_le resolved
    rw [hstep] at happend ⊢
    simp only [List.length_nil, List.length_cons] at happend ⊢
    omega

theorem rootedSize_resolveSegments_le (segments : List Text) :
    rootedSize (resolveSegments ([] :: segments)) ≤ segmentsSize ([] :: segments) := by
  have hroot : rootedSize (resolveSegment [] []) = 1 := rfl
  unfold resolveSegments
  dsimp only
  split
  · next hlast =>
    -- the segments are not just the root, for they end in dots
    rcases List.eq_nil_or_concat segments with rfl | ⟨init, last, rfl⟩
    · simp at hlast
    · rw [List.concat_eq_append] at hlast ⊢
      have hdots : last = ['.'] ∨ last = ['.', '.'] := by
        rwa [← List.cons_append, List.getLast?_concat, Option.some.injEq,
          Option.some.injEq] at hlast
      have hinit := rootedSize_foldl_le init (resolveSegment [] [])
      have hend := rootedSize_dots_le (init.foldl resolveSegment (resolveSegment [] [])) hdots
      rw [List.foldl_cons, List.foldl_append]
      simp only [List.foldl_cons, List.foldl_nil, segmentsSize, segmentsSize_append,
        List.length_nil] at hend ⊢
      omega
  · have hfold := rootedSize_foldl_le segments (resolveSegment [] [])
    simp only [List.foldl_cons, segmentsSize, List.length_nil]
    omega

/-- The text of segments is as long as their size says, or just the root. -/
theorem length_rootedText (segments : List Text) :
    (rootedText segments).length ≤ 1 ∨ (rootedText segments).length + 1 ≤ rootedSize segments := by
  unfold rootedText
  dsimp only
  cases segments with
  | nil => exact .inl (Nat.le_refl _)
  | cons s segments =>
    have hlength := length_intercalate '/' (List.cons_ne_nil s segments)
    rw [rootedSize]
    split
    · right
      omega
    · next hhead =>
      by_cases hs : s = []
      · subst hs
        cases segments with
        | nil => exact .inl (Nat.le_refl _)
        | cons s' segments => simp [List.intercalate_cons_cons] at hhead
      · right
        rw [List.length_cons, if_neg hs]
        omega

theorem length_le_of_mem_segments {s : Text} {segments : List Text} (h : s ∈ segments) :
    s.length + 1 ≤ segmentsSize segments := by
  induction segments with
  | nil => cases h
  | cons s' segments ih =>
    simp only [segmentsSize]
    rcases List.mem_cons.mp h with rfl | h
    · omega
    · have hrest := ih h
      omega

/-- A rooted path begins with an empty segment. -/
theorem splitOn_root (t : Text) : ('/' :: t).splitOn '/' = [] :: t.splitOn '/' :=
  @List.splitOn_append_cons_self Char _ _ '/' [] t

/-- The parameters of a rooted path are in it after the root. -/
theorem splitParams_root (t : Text) : ∃ t', (splitParams ('/' :: t)).1 = '/' :: t' ∧
    t'.length + (splitParams ('/' :: t)).2.length ≤ t.length := by
  unfold splitParams
  dsimp only
  rw [splitOn_root]
  have hlast : (([] :: t.splitOn '/').getLastD []).length ≤ t.length := by
    have hmem : ([] :: t.splitOn '/').getLastD [] ∈ t.splitOn '/' := by
      obtain ⟨first, rest, hsplit⟩ := List.exists_cons_of_ne_nil (List.splitOn_ne_nil '/' t)
      rw [hsplit, List.getLastD_cons]
      exact List.getLast_mem _
    have hle := length_le_of_mem_segments hmem
    rw [segmentsSize_splitOn] at hle
    omega
  have hparams := (List.dropWhile_suffix (fun c => decide (c ≠ ';'))
    (l := ([] :: t.splitOn '/').getLastD [])).length_le
  generalize ([] :: t.splitOn '/').getLastD [] = last at *
  generalize last.dropWhile (fun c => decide (c ≠ ';')) = params at *
  have htake : ('/' :: t).length - params.length = (t.length - params.length) + 1 := by
    rw [List.length_cons]
    omega
  refine ⟨t.take (t.length - params.length), ?_, ?_⟩
  · rw [htake, List.take_succ_cons]
  · rw [List.length_take]
    split
    · rw [List.length_nil]
      omega
    · omega

/-- A joined path is no longer than what stands before the query. -/
theorem length_joinedPath_le {url t : Text}
    (hpath : ((url.filter fun c => !removedChar c).takeWhile fun c => !endsPath c) = '/' :: t) :
    (joinedPath url).length ≤ t.length + 1 := by
  obtain ⟨t', hsplit, hlength⟩ := splitParams_root t
  unfold joinedPath
  dsimp only
  rw [hpath, hsplit, splitOn_root, List.length_append]
  have hresolved := rootedSize_resolveSegments_le (t'.splitOn '/')
  have hsize : segmentsSize ([] :: t'.splitOn '/') = t'.length + 2 := by
    rw [segmentsSize, segmentsSize_splitOn, List.length_nil]
    omega
  rcases length_rootedText (resolveSegments ([] :: t'.splitOn '/')) with htext | htext <;> omega

/-- A character that a URL cannot have, or that ends the path, makes the joined path shorter. -/
theorem length_joinedPath_lt {t : Text} (h : ∃ c ∈ t, removedChar c = true ∨ endsPath c = true) :
    (joinedPath ('/' :: t)).length < t.length + 1 := by
  have hfilter : (('/' :: t).filter fun c => !removedChar c) =
      '/' :: t.filter fun c => !removedChar c := rfl
  have hpath : ((('/' :: t).filter fun c => !removedChar c).takeWhile fun c => !endsPath c) =
      '/' :: (t.filter fun c => !removedChar c).takeWhile fun c => !endsPath c := by
    rw [hfilter]
    rfl
  have hle := length_joinedPath_le hpath
  have hshort : ((t.filter fun c => !removedChar c).takeWhile fun c => !endsPath c).length <
      t.length := by
    have htake := (List.takeWhile_prefix (l := t.filter fun c => !removedChar c)
      fun c => !endsPath c).length_le
    have hkept := List.length_filter_le (fun c => !removedChar c) t
    refine Nat.lt_of_le_of_ne (Nat.le_trans htake hkept) fun heq => ?_
    have hall : t.filter (fun c => !removedChar c) = t :=
      List.length_filter_eq_length_iff.mp (by omega) |> List.filter_eq_self.mpr
    rw [hall] at heq
    have hwhole := (List.takeWhile_prefix (l := t) fun c => !endsPath c).eq_of_length heq
    obtain ⟨c, hc, hbad | hbad⟩ := h
    · have hkeep := List.filter_eq_self.mp hall c hc
      rw [hbad] at hkeep
      cases hkeep
    · have hkeep := List.takeWhile_eq_self_iff.mp hwhole c hc
      rw [hbad] at hkeep
      cases hkeep
  omega

theorem foldl_resolveSegment {segments : List Text} (resolved : List Text)
    (h : ∀ s ∈ segments, s ≠ ['.'] ∧ s ≠ ['.', '.']) :
    segments.foldl resolveSegment resolved = resolved ++ segments := by
  induction segments generalizing resolved with
  | nil => exact (List.append_nil resolved).symm
  | cons s segments ih =>
    obtain ⟨hdot, hdots⟩ := h s List.mem_cons_self
    have hstep : resolveSegment resolved s = resolved ++ [s] := by
      unfold resolveSegment
      rw [if_neg hdots, if_neg hdot]
    rw [List.foldl_cons, hstep, ih _ fun s' hs' => h s' (List.mem_cons_of_mem _ hs'),
      List.append_assoc]
    rfl

/-- Without dots there is nothing to resolve. -/
theorem resolveSegments_eq_self {segments : List Text}
    (h : ∀ s ∈ segments, s ≠ ['.'] ∧ s ≠ ['.', '.']) : resolveSegments segments = segments := by
  unfold resolveSegments
  dsimp only
  rw [foldl_resolveSegment [] h, List.nil_append, if_neg]
  rintro (hlast | hlast)
  · exact (h _ (List.mem_of_getLast? hlast)).1 rfl
  · exact (h _ (List.mem_of_getLast? hlast)).2 rfl

/-- A path without such characters and without dots comes back as it is. The last segment has no
parameters. -/
theorem joinedPath_eq_self {t : Text}
    (hchars : ∀ c ∈ t, removedChar c = false ∧ endsPath c = false)
    (hdots : ∀ s ∈ t.splitOn '/', s ≠ ['.'] ∧ s ≠ ['.', '.'])
    (hlast : ';' ∉ (t.splitOn '/').getLastD []) : joinedPath ('/' :: t) = '/' :: t := by
  have hroot : ∀ c ∈ '/' :: t, removedChar c = false ∧ endsPath c = false := by
    intro c hc
    rcases List.mem_cons.mp hc with rfl | hc
    · decide
    · exact hchars c hc
  have hfilter : (('/' :: t).filter fun c => !removedChar c) = '/' :: t :=
    List.filter_eq_self.mpr fun c hc => by simp [(hroot c hc).1]
  have hwhole : (('/' :: t).takeWhile fun c => !endsPath c) = '/' :: t :=
    List.takeWhile_eq_self_iff.mpr fun c hc => by simp [(hroot c hc).2]
  have hlast' : ([] :: t.splitOn '/').getLastD [] = (t.splitOn '/').getLastD [] := by
    obtain ⟨first, rest, hsplit⟩ := List.exists_cons_of_ne_nil (List.splitOn_ne_nil '/' t)
    rw [hsplit, List.getLastD_cons, List.getLastD_cons]
  have hparams :
      (([] :: t.splitOn '/').getLastD []).dropWhile (fun c => decide (c ≠ ';')) = [] := by
    rw [hlast', List.dropWhile_eq_nil_iff]
    intro c hc
    exact decide_eq_true fun heq => hlast (heq ▸ hc)
  have hsplit : splitParams ('/' :: t) = ('/' :: t, []) := by
    unfold splitParams
    dsimp only
    rw [splitOn_root, hparams, List.length_nil, Nat.sub_zero, List.take_length]
    rfl
  have hsegments : resolveSegments ([] :: t.splitOn '/') = [] :: t.splitOn '/' := by
    refine resolveSegments_eq_self fun s hs => ?_
    rcases List.mem_cons.mp hs with rfl | hs
    · decide
    · exact hdots s hs
  unfold joinedPath
  dsimp only
  rw [hfilter, hwhole, hsplit]
  dsimp only
  rw [splitOn_root, hsegments, List.append_nil, ← splitOn_root]
  unfold rootedText
  dsimp only
  rw [List.intercalate_splitOn]
  rfl

end Join

end Rdfm.Lib
