import Mathlib.Data.List.Infix
import Rdfm.Lib.FileSys

/-!
# Paths and symbolic links

A path as text, as its segments, and as the place in the tree of files that it leads to. Segments
are followed one by one: `..` goes up, a name goes down, and a symbolic link goes to where it leads.
A place is reached in the same way from itself (`Links.resolve_canonical`), and without links no
path leads to a place with a longer text (`size_resolve_le`).
-/

namespace Rdfm.Lib

/-! ## Segments of a text -/

section Split

variable {t s : Text}

theorem notMem_of_mem_splitOn {c : Char} (h : s ∈ t.splitOn c) : c ∉ s := by
  induction t generalizing s with
  | nil =>
    rw [List.splitOn_nil, List.mem_singleton] at h
    rw [h]
    exact List.not_mem_nil
  | cons d t ih =>
    rw [List.splitOn_cons_eq_if_modifyHead] at h
    split at h
    · rcases List.mem_cons.mp h with rfl | h
      · exact List.not_mem_nil
      · exact ih h
    · next hne =>
      obtain ⟨first, rest, hsplit⟩ := List.exists_cons_of_ne_nil (List.splitOn_ne_nil c t)
      rw [hsplit, List.modifyHead_cons] at h
      rcases List.mem_cons.mp h with rfl | h
      · have hfirst : c ∉ first := ih (hsplit ▸ List.mem_cons_self)
        have hdc : c ≠ d := fun heq => hne (beq_iff_eq.mpr heq.symm)
        exact fun hmem => (List.mem_cons.mp hmem).elim hdc hfirst
      · exact ih (hsplit ▸ List.mem_cons_of_mem _ h)

/-- The length of the text of some segments, each with a separator. -/
def segmentsSize : List Text → Nat
  | [] => 0
  | s :: segments => s.length + 1 + segmentsSize segments

@[simp] theorem segmentsSize_append (p q : List Text) :
    segmentsSize (p ++ q) = segmentsSize p + segmentsSize q := by
  induction p with
  | nil => simp [segmentsSize]
  | cons s p ih =>
    simp only [List.cons_append, segmentsSize, ih]
    omega

theorem segmentsSize_filter_le (keep : Text → Bool) (p : List Text) :
    segmentsSize (p.filter keep) ≤ segmentsSize p := by
  induction p with
  | nil => simp
  | cons s p ih =>
    rw [List.filter_cons]
    split
    · simp only [segmentsSize]
      omega
    · simp only [segmentsSize]
      omega

theorem segmentsSize_dropLast_le (p : List Text) : segmentsSize p.dropLast ≤ segmentsSize p := by
  induction p with
  | nil => simp
  | cons s p ih =>
    cases p with
    | nil => simp [segmentsSize]
    | cons s' p =>
      rw [List.dropLast_cons_cons]
      simp only [segmentsSize] at ih ⊢
      omega

theorem segmentsSize_splitOn (c : Char) (t : Text) : segmentsSize (t.splitOn c) = t.length + 1 := by
  induction t with
  | nil => simp [segmentsSize]
  | cons d t ih =>
    rw [List.splitOn_cons_eq_if_modifyHead]
    split
    · simp only [segmentsSize, ih, List.length_nil, List.length_cons]
      omega
    · obtain ⟨first, rest, hsplit⟩ := List.exists_cons_of_ne_nil (List.splitOn_ne_nil c t)
      rw [hsplit] at ih ⊢
      rw [List.modifyHead_cons]
      simp only [segmentsSize, List.length_cons] at ih ⊢
      omega

theorem length_intercalate (c : Char) {p : List Text} (h : p ≠ []) :
    ([c].intercalate p).length + 1 = segmentsSize p := by
  induction p with
  | nil => exact absurd rfl h
  | cons s p ih =>
    cases p with
    | nil => simp [segmentsSize]
    | cons s' p =>
      have ih := ih (List.cons_ne_nil s' p)
      rw [List.intercalate_cons_cons]
      simp only [segmentsSize, List.length_append, List.length_singleton] at ih ⊢
      omega

end Split

/-! ## Paths -/

/-- A name in a directory. -/
structure IsName (t : Text) : Prop where
  ne_nil : t ≠ []
  ne_dot : t ≠ ['.']
  ne_dots : t ≠ ['.', '.']
  no_slash : '/' ∉ t

/-- A path: from the root or not, and its segments that are not empty and not a dot. -/
structure PurePath where
  absolute : Bool
  parts : List Text
deriving DecidableEq, Repr

namespace PurePath

def parse (t : Text) : PurePath where
  absolute := t.head? = some '/'
  parts := (t.splitOn '/').filter fun s => s ≠ [] ∧ s ≠ ['.']

/-- A path in the directory of another; one from the root stays as it is. -/
def join (p q : PurePath) : PurePath :=
  if q.absolute then q else ⟨p.absolute, p.parts ++ q.parts⟩

/-- The text of a path that is not from the root. -/
def relativeText (parts : List Text) : Text :=
  if parts = [] then ['.'] else ['/'].intercalate parts

def text (p : PurePath) : Text :=
  if p.absolute then '/' :: ['/'].intercalate p.parts else relativeText p.parts

theorem mem_parse_parts {t s : Text} (h : s ∈ (parse t).parts) : s = ['.', '.'] ∨ IsName s := by
  obtain ⟨hsplit, hkept⟩ := List.mem_filter.mp h
  obtain ⟨hnil, hdot⟩ := of_decide_eq_true hkept
  by_cases hdots : s = ['.', '.']
  · exact .inl hdots
  · exact .inr ⟨hnil, hdot, hdots, notMem_of_mem_splitOn hsplit⟩

theorem size_parse_le (t : Text) : segmentsSize (parse t).parts ≤ t.length + 1 := by
  rw [← segmentsSize_splitOn '/' t]
  exact segmentsSize_filter_le _ _

/-- Names stay what they are in the text of their path. -/
theorem parse_relativeText {names : List Text} (h : ∀ name ∈ names, IsName name) :
    parse (relativeText names) = ⟨false, names⟩ := by
  unfold relativeText
  split
  · next hnil =>
    rw [hnil]
    decide
  · next hne =>
    have hkeep : names.filter (fun s => s ≠ [] ∧ s ≠ ['.']) = names :=
      List.filter_eq_self.mpr fun s hs => decide_eq_true ⟨(h s hs).ne_nil, (h s hs).ne_dot⟩
    have hhead : (['/'].intercalate names).head? ≠ some '/' := by
      cases names with
      | nil => exact absurd rfl hne
      | cons s names =>
        have hs := h s List.mem_cons_self
        obtain ⟨c, cs, rfl⟩ := List.exists_cons_of_ne_nil hs.ne_nil
        have hc : c ≠ '/' := fun heq => hs.no_slash (heq ▸ List.mem_cons_self)
        cases names with
        | nil => simpa using hc
        | cons s' names => simpa [List.intercalate_cons_cons] using hc
    unfold parse
    rw [List.splitOn_intercalate '/' (fun s hs => (h s hs).no_slash) hne, hkeep]
    simp [hhead]

theorem length_relativeText {names : List Text} (h : names ≠ []) :
    (relativeText names).length + 1 = segmentsSize names := by
  unfold relativeText
  rw [if_neg h, length_intercalate '/' h]

end PurePath

/-! ## Places and links -/

/-- Symbolic links, by their places, and the places that they lead to. No link leads to a link, or
through one. -/
structure Links where
  target : List Text → Option (List Text)
  names : ∀ link place, target link = some place → ∀ name ∈ place, IsName name
  canonical : ∀ link place, target link = some place → ∀ above, above <+: place →
    target above = none

namespace Links

/-- There are no links. -/
def noLinks : Links where
  target := fun _ => none
  names := nofun
  canonical := nofun

variable (links : Links)

/-- The place of one more segment. -/
def follow (place : List Text) (segment : Text) : List Text :=
  if segment = ['.', '.'] then place.dropLast
  else (links.target (place ++ [segment])).getD (place ++ [segment])

def resolve (place : List Text) (segments : List Text) : List Text :=
  segments.foldl links.follow place

/-- A place: names, and none of the directories above is a link. -/
structure Canonical (place : List Text) : Prop where
  names : ∀ name ∈ place, IsName name
  free : ∀ above, above <+: place → links.target above = none

variable {links} {place : List Text}

theorem target_nil : links.target [] = none := by
  cases h : links.target [] with
  | none => rfl
  | some target => exact h.symm.trans (links.canonical [] target h [] List.nil_prefix)

theorem canonical_nil : links.Canonical [] where
  names := nofun
  free above habove := by
    rw [List.prefix_nil.mp habove]
    exact target_nil

theorem Canonical.of_prefix (h : links.Canonical place) {above : List Text}
    (habove : above <+: place) : links.Canonical above where
  names name hname := h.names name (habove.subset hname)
  free above' habove' := h.free above' (habove'.trans habove)

theorem Canonical.follow (h : links.Canonical place) {segment : Text}
    (hsegment : segment = ['.', '.'] ∨ IsName segment) :
    links.Canonical (links.follow place segment) := by
  unfold Links.follow
  split
  · exact h.of_prefix (List.dropLast_prefix place)
  · next hdots =>
    have hname := hsegment.resolve_left hdots
    cases htarget : links.target (place ++ [segment]) with
    | some target => exact ⟨links.names _ _ htarget, links.canonical _ _ htarget⟩
    | none =>
      refine ⟨fun name hmem => ?_, fun above habove => ?_⟩
      · rcases List.mem_append.mp hmem with hmem | hmem
        · exact h.names name hmem
        · exact List.mem_singleton.mp hmem ▸ hname
      · rcases List.prefix_concat_iff.mp habove with rfl | habove
        · exact htarget
        · exact h.free above habove

theorem Canonical.resolve {segments : List Text} (h : links.Canonical place)
    (hsegments : ∀ s ∈ segments, s = ['.', '.'] ∨ IsName s) :
    links.Canonical (links.resolve place segments) := by
  induction segments generalizing place with
  | nil => exact h
  | cons s segments ih =>
    exact ih (h.follow (hsegments s List.mem_cons_self)) fun s' hs' =>
      hsegments s' (List.mem_cons_of_mem _ hs')

theorem resolve_append (p q : List Text) :
    links.resolve place (p ++ q) = links.resolve (links.resolve place p) q :=
  List.foldl_append

/-- A place is reached by its own names. -/
theorem resolve_canonical {names : List Text} (h : links.Canonical (place ++ names)) :
    links.resolve place names = place ++ names := by
  induction names generalizing place with
  | nil => exact (List.append_nil place).symm
  | cons name names ih =>
    have hname := h.names name (List.mem_append_right _ List.mem_cons_self)
    have hnext : place ++ name :: names = (place ++ [name]) ++ names := by simp
    have hfree : links.target (place ++ [name]) = none :=
      h.free _ (hnext ▸ List.prefix_append _ _)
    have hfollow : links.follow place name = place ++ [name] := by
      unfold Links.follow
      rw [if_neg hname.ne_dots, hfree, Option.getD_none]
    change links.resolve (links.follow place name) names = _
    rw [hfollow, hnext]
    exact ih (hnext ▸ h)

end Links

/-- Without links, no path leads to a place with a longer text than its own. -/
theorem size_resolve_le (place segments : List Text) :
    segmentsSize (Links.noLinks.resolve place segments) ≤
      segmentsSize place + segmentsSize segments := by
  induction segments generalizing place with
  | nil => simp [Links.resolve]
  | cons s segments ih =>
    have hnext := ih (Links.noLinks.follow place s)
    have hfollow : segmentsSize (Links.noLinks.follow place s) ≤
        segmentsSize place + (s.length + 1) := by
      unfold Links.follow
      split
      · have hdrop := segmentsSize_dropLast_le place
        omega
      · change segmentsSize (place ++ [s]) ≤ _
        simp [segmentsSize]
    change segmentsSize (Links.noLinks.resolve (Links.noLinks.follow place s) segments) ≤ _
    simp only [segmentsSize]
    omega

/-! ## Trees of files -/

structure FileTree where
  files : List Text → Option Bytes
  dirs : List Text → Bool

namespace FileTree

variable (tree : FileTree)

/-- Make a directory and those above it; none of them may be a file. -/
def makeDirs (place : List Text) : Option FileTree :=
  if place.inits.any fun above => (tree.files above).isSome then none
  else some { tree with dirs := fun p => tree.dirs p || p.isPrefixOf place }

def write (place : List Text) (content : Bytes) : FileTree :=
  { tree with files := fun p => if p = place then some content else tree.files p }

def remove (place : List Text) : FileTree :=
  { tree with files := fun p => if p = place then none else tree.files p }

variable {tree}

theorem makeDirs_eq_none_iff {place : List Text} :
    tree.makeDirs place = none ↔ ∃ above, above <+: place ∧ tree.files above ≠ none := by
  have hany : (place.inits.any fun above => (tree.files above).isSome) = true ↔
      ∃ above, above <+: place ∧ tree.files above ≠ none := by
    simp only [List.any_eq_true, List.mem_inits, Option.isSome_iff_ne_none]
  unfold makeDirs
  rw [← hany]
  split
  · next h => exact iff_of_true rfl h
  · next h => exact iff_of_false (Option.some_ne_none _) h

theorem makeDirs_eq_some {place : List Text} {tree' : FileTree}
    (h : tree.makeDirs place = some tree') :
    tree'.files = tree.files ∧ ∀ p, tree'.dirs p ≠ tree.dirs p → p <+: place := by
  unfold makeDirs at h
  split at h
  · cases h
  · cases h
    refine ⟨rfl, fun p hp => ?_⟩
    by_contra hnot
    have hfalse : p.isPrefixOf place = false := by
      rw [Bool.eq_false_iff]
      exact fun hpre => hnot (List.isPrefixOf_iff_prefix.mp hpre)
    exact hp (by simp [hfalse])

end FileTree

end Rdfm.Lib
