import Rdfm.Lib.PosixPath

/-!
# Trees with symbolic links

A tree of files, directories and symbolic links, and the place that a path leads to from some
directory (`Resolves`). A walk resolves a path segment by segment to a path without links, as long
as it meets no more than a given number of links; it finds exactly what the path leads to
(`walk_iff`). The relative path between two such paths is lexical (`relative_eq_iff`).
-/

namespace Rdfm.Lib

inductive TreeNode where
  | file
  | dir
  | link (target : Text)
deriving DecidableEq, Repr

/-- The nodes of a tree, by their places. -/
structure LinkTree where
  node : List Text → Option TreeNode
  root : node [] = some .dir
  parent : ∀ place name, node (place ++ [name]) ≠ none → node place = some .dir
  names : ∀ place, node place ≠ none → ∀ name ∈ place, IsName name

def isAbsolute (path : Text) : Bool := path.head? = some '/'

namespace LinkTree

/-- From a place, following the segments leads to a place, by way of a number of links. -/
inductive Resolves (tree : LinkTree) : List Text → List Text → Nat → List Text → Prop
  | done (place : List Text) : Resolves tree place [] 0 place
  | stay {place segs result : List Text} {s : Text} {n : Nat} (hs : s = [] ∨ s = ['.'])
      (h : Resolves tree place segs n result) : Resolves tree place (s :: segs) n result
  | up {place segs result : List Text} {n : Nat}
      (h : Resolves tree place.dropLast segs n result) :
      Resolves tree place (['.', '.'] :: segs) n result
  | dir {place segs result : List Text} {s : Text} {n : Nat}
      (hnode : tree.node (place ++ [s]) = some .dir)
      (h : Resolves tree (place ++ [s]) segs n result) : Resolves tree place (s :: segs) n result
  | file {place : List Text} {s : Text} (hnode : tree.node (place ++ [s]) = some .file) :
      Resolves tree place [s] 0 (place ++ [s])
  | link {place segs result : List Text} {s target : Text} {n : Nat}
      (hnode : tree.node (place ++ [s]) = some (.link target))
      (h : Resolves tree (if isAbsolute target then [] else place) (target.splitOn '/' ++ segs) n
        result) : Resolves tree place (s :: segs) (n + 1) result

/-- The path leads to the place, from the directory `cwd` if it is relative. -/
def ResolvesTo (tree : LinkTree) (maxLinks : Nat) (cwd : List Text) (path : Text)
    (result : List Text) : Prop :=
  ∃ n ≤ maxLinks,
    tree.Resolves (if isAbsolute path then [] else cwd) (path.splitOn '/') n result

end LinkTree

/-! ## Paths without links -/

namespace PurePath

def descend (place : List Text) (s : Text) : List Text :=
  if s = ['.', '.'] then place.dropLast else place ++ [s]

/-- The place of a path that has no links. -/
def locate (cwd : List Text) (p : PurePath) : List Text :=
  p.parts.foldl descend (if p.absolute then [] else cwd)

/-- One directory up; what is above the start of a relative path stays as `..`. -/
def up (p : PurePath) : PurePath :=
  if p.parts.getLast? = some ['.', '.'] then ⟨p.absolute, p.parts ++ [['.', '.']]⟩
  else if p.parts = [] ∧ ¬ p.absolute then ⟨p.absolute, [['.', '.']]⟩
  else ⟨p.absolute, p.parts.dropLast⟩

def down (p : PurePath) (s : Text) : PurePath := ⟨p.absolute, p.parts ++ [s]⟩

variable {cwd : List Text} {p : PurePath}

theorem locate_append (parts : List Text) (s : Text) (b : Bool) :
    locate cwd ⟨b, parts ++ [s]⟩ = descend (locate cwd ⟨b, parts⟩) s := by
  unfold locate
  rw [List.foldl_append]
  rfl

theorem locate_down {s : Text} (hs : s ≠ ['.', '.']) :
    locate cwd (p.down s) = locate cwd p ++ [s] := by
  unfold down
  rw [locate_append, descend, if_neg hs]

theorem locate_up : locate cwd p.up = (locate cwd p).dropLast := by
  rcases p with ⟨b, parts⟩
  unfold up
  dsimp only
  split
  · rw [locate_append, descend, if_pos rfl]
  · next hlast =>
    rcases List.eq_nil_or_concat parts with rfl | ⟨parts, s, rfl⟩
    · cases b <;> rfl
    · have hs : s ≠ ['.', '.'] := by
        rintro rfl
        exact hlast (by simp)
      rw [if_neg (by simp), List.concat_eq_append, List.dropLast_concat, locate_append, descend,
        if_neg hs, List.dropLast_concat]

end PurePath

/-! ## Walks -/

namespace LinkTree

/-- Follow the segments up to the first link. -/
def walkSegments (tree : LinkTree) (cwd : List Text)
    (follow : PurePath → List Text → Option PurePath) :
    PurePath → List Text → Option PurePath
  | dest, [] => some dest
  | dest, s :: segs =>
    if s = [] ∨ s = ['.'] then walkSegments tree cwd follow dest segs
    else if s = ['.', '.'] then walkSegments tree cwd follow dest.up segs
    else
      match tree.node (dest.locate cwd ++ [s]) with
      | none => none
      | some .dir => walkSegments tree cwd follow (dest.down s) segs
      | some .file => if segs = [] then some (dest.down s) else none
      | some (.link target) =>
        follow (if isAbsolute target then ⟨true, []⟩ else dest) (target.splitOn '/' ++ segs)

/-- A walk with no more than `n` links. -/
def walk (tree : LinkTree) (cwd : List Text) : Nat → PurePath → List Text → Option PurePath
  | 0 => tree.walkSegments cwd fun _ _ => none
  | n + 1 => tree.walkSegments cwd (tree.walk cwd n)

variable {tree : LinkTree} {cwd : List Text}

theorem walkSegments_sound {follow : PurePath → List Text → Option PurePath} {n : Nat}
    (hfollow : ∀ dest segs d, follow dest segs = some d →
      ∃ k < n, tree.Resolves (dest.locate cwd) segs k (d.locate cwd))
    {dest d : PurePath} {segs : List Text} (h : tree.walkSegments cwd follow dest segs = some d) :
    ∃ k ≤ n, tree.Resolves (dest.locate cwd) segs k (d.locate cwd) := by
  induction segs generalizing dest with
  | nil =>
    cases h
    exact ⟨0, Nat.zero_le _, .done _⟩
  | cons s segs ih =>
    simp only [walkSegments] at h
    split at h
    · next hstay =>
      rcases ih h with ⟨k, hk, hres⟩
      exact ⟨k, hk, .stay hstay hres⟩
    · split at h
      · next hdots =>
        subst hdots
        rcases ih h with ⟨k, hk, hres⟩
        rw [PurePath.locate_up] at hres
        exact ⟨k, hk, .up hres⟩
      · next hdots =>
        split at h
        · cases h
        · next hnode =>
          rcases ih h with ⟨k, hk, hres⟩
          rw [PurePath.locate_down hdots] at hres
          exact ⟨k, hk, .dir hnode hres⟩
        · next hnode =>
          split at h
          · next hsegs =>
            cases h
            subst hsegs
            rw [PurePath.locate_down hdots]
            exact ⟨0, Nat.zero_le _, .file hnode⟩
          · cases h
        · next target hnode =>
          rcases hfollow _ _ _ h with ⟨k, hk, hres⟩
          refine ⟨k + 1, hk, .link hnode ?_⟩
          split
          · next habs => rwa [if_pos habs] at hres
          · next habs => rwa [if_neg habs] at hres

theorem walk_sound {n : Nat} {dest d : PurePath} {segs : List Text}
    (h : tree.walk cwd n dest segs = some d) :
    ∃ k ≤ n, tree.Resolves (dest.locate cwd) segs k (d.locate cwd) := by
  induction n generalizing dest segs d with
  | zero => exact walkSegments_sound (fun _ _ _ hnone => by cases hnone) h
  | succ n ih =>
    refine walkSegments_sound (fun dest' segs' d' hd => ?_) h
    rcases ih hd with ⟨k, hk, hres⟩
    exact ⟨k, Nat.lt_succ_of_le hk, hres⟩

/-! ### The steps of a walk -/

variable {n : Nat} {dest : PurePath} {s : Text} {segs : List Text}

theorem walk_nil : tree.walk cwd n dest [] = some dest := by
  cases n <;> rfl

theorem walk_stay (hs : s = [] ∨ s = ['.']) :
    tree.walk cwd n dest (s :: segs) = tree.walk cwd n dest segs := by
  cases n <;> simp only [walk, walkSegments, if_pos hs]

theorem walk_up : tree.walk cwd n dest (['.', '.'] :: segs) = tree.walk cwd n dest.up segs := by
  cases n <;> simp [walk, walkSegments]

theorem isName_of_node {node : TreeNode} (h : tree.node (dest.locate cwd ++ [s]) = some node) :
    IsName s := by
  have hsome : tree.node (dest.locate cwd ++ [s]) ≠ none := by simp [h]
  exact tree.names _ hsome s (List.mem_append_right _ (List.mem_singleton_self s))

theorem walk_dir (h : tree.node (dest.locate cwd ++ [s]) = some .dir) :
    tree.walk cwd n dest (s :: segs) = tree.walk cwd n (dest.down s) segs := by
  have hs := isName_of_node h
  cases n <;> simp [walk, walkSegments, hs.ne_nil, hs.ne_dot, hs.ne_dots, h]

theorem walk_file (h : tree.node (dest.locate cwd ++ [s]) = some .file) :
    tree.walk cwd n dest [s] = some (dest.down s) := by
  have hs := isName_of_node h
  cases n <;> simp [walk, walkSegments, hs.ne_nil, hs.ne_dot, hs.ne_dots, h]

theorem walk_link {target : Text} (h : tree.node (dest.locate cwd ++ [s]) = some (.link target)) :
    tree.walk cwd (n + 1) dest (s :: segs) =
      tree.walk cwd n (if isAbsolute target then ⟨true, []⟩ else dest)
        (target.splitOn '/' ++ segs) := by
  have hs := isName_of_node h
  simp [walk, walkSegments, hs.ne_nil, hs.ne_dot, hs.ne_dots, h]

theorem walk_complete {place result : List Text} {k : Nat}
    (h : tree.Resolves place segs k result) (hdest : dest.locate cwd = place) (hk : k ≤ n) :
    ∃ d, tree.walk cwd n dest segs = some d ∧ d.locate cwd = result := by
  induction h generalizing n dest with
  | done place => exact ⟨dest, walk_nil, hdest⟩
  | stay hs _ ih =>
    rw [walk_stay hs]
    exact ih hdest hk
  | up _ ih =>
    rw [walk_up]
    exact ih (by rw [PurePath.locate_up, hdest]) hk
  | dir hnode _ ih =>
    rw [← hdest] at hnode
    rw [walk_dir hnode]
    exact ih (by rw [PurePath.locate_down (isName_of_node hnode).ne_dots, hdest]) hk
  | file hnode =>
    rw [← hdest] at hnode ⊢
    exact ⟨_, walk_file hnode, PurePath.locate_down (isName_of_node hnode).ne_dots⟩
  | link hnode _ ih =>
    rw [← hdest] at hnode
    cases n with
    | zero => cases hk
    | succ n =>
      rw [walk_link hnode]
      refine ih ?_ (Nat.le_of_succ_le_succ hk)
      split
      · rfl
      · exact hdest

/-- A walk finds what the segments lead to. -/
theorem walk_iff {result : List Text} :
    (∃ d, tree.walk cwd n dest segs = some d ∧ d.locate cwd = result) ↔
      ∃ k ≤ n, tree.Resolves (dest.locate cwd) segs k result := by
  constructor
  · rintro ⟨d, hd, rfl⟩
    exact walk_sound hd
  · rintro ⟨k, hk, hres⟩
    exact walk_complete hres rfl hk

end LinkTree

/-! ## Relative paths -/

section Relative

variable {α : Type*} [DecidableEq α]

/-- What two lists have after their common beginning. -/
def stripCommon : List α → List α → List α × List α
  | x :: xs, y :: ys => if x = y then stripCommon xs ys else (x :: xs, y :: ys)
  | xs, ys => (xs, ys)

theorem stripCommon_append (xs ys : List α) : stripCommon xs (xs ++ ys) = ([], ys) := by
  induction xs with
  | nil => cases ys <;> rfl
  | cons x xs ih => rw [List.cons_append, stripCommon, if_pos rfl, ih]

theorem append_of_stripCommon {xs ys zs : List α} (h : stripCommon xs ys = ([], zs)) :
    ys = xs ++ zs := by
  induction xs generalizing ys with
  | nil =>
    cases ys with
    | nil => exact congrArg Prod.snd h
    | cons y ys => exact congrArg Prod.snd h
  | cons x xs ih =>
    cases ys with
    | nil => cases h
    | cons y ys =>
      rw [stripCommon] at h
      split at h
      · next heq => rw [heq, ih h, List.cons_append]
      · cases h

end Relative

namespace PurePath

/-- The segments of `filepath.Rel`, of clean paths. -/
def relative (base targ : PurePath) : Option (List Text) :=
  if base = targ then some [['.']]
  else if base.absolute ≠ targ.absolute then none
  else
    match stripCommon base.parts targ.parts with
    | ([], rest) => some rest
    | (b :: bs, rest) =>
      if b = ['.', '.'] then none else some ((b :: bs).map (fun _ => ['.', '.']) ++ rest)

/-- Every segment of `names` on its own is free of `word`. -/
theorem infix_intercalate_iff {word : Text} {c : Char} (hword : c ∉ word) (hne : word ≠ [])
    (names : List Text) : word <:+: [c].intercalate names ↔ ∃ name ∈ names, word <:+: name := by
  have hfront : ∀ {l ys : Text}, l <+: c :: ys → c ∉ l → l = [] := by
    intro l ys hl hc
    rcases l with _ | ⟨d, l⟩
    · rfl
    · rcases hl with ⟨t, ht⟩
      cases ht
      exact absurd List.mem_cons_self hc
  induction names with
  | nil => simp [hne]
  | cons name names ih =>
    cases names with
    | nil => simp
    | cons name' names =>
      rw [List.intercalate_cons_cons, List.append_assoc, List.singleton_append,
        List.infix_append_iff, List.infix_cons_iff]
      constructor
      · rintro (hname | (hword' | hrest) | ⟨l₁, l₂, rfl, hl₁, hl₂⟩)
        · exact ⟨name, List.mem_cons_self, hname⟩
        · exact absurd (hfront hword' hword) hne
        · rcases ih.mp hrest with ⟨found, hmem, hfound⟩
          exact ⟨found, List.mem_cons_of_mem _ hmem, hfound⟩
        · have hnil := hfront hl₂ fun hc => hword (List.mem_append_right l₁ hc)
          rw [hnil, List.append_nil]
          exact ⟨name, List.mem_cons_self, hl₁.isInfix⟩
      · rintro ⟨found, hmem, hfound⟩
        rcases List.mem_cons.mp hmem with rfl | hmem
        · exact .inl hfound
        · exact .inr (.inl (.inr (ih.mpr ⟨found, hmem, hfound⟩)))

/-- The relative path has no segment with two dots exactly if it goes down by such names. -/
theorem relative_eq_iff {base targ : PurePath} :
    (∃ names, base.relative targ = some names ∧ ∀ name ∈ names, ¬ ['.', '.'] <:+: name) ↔
      ∃ names, targ = ⟨base.absolute, base.parts ++ names⟩ ∧
        ∀ name ∈ names, ¬ ['.', '.'] <:+: name := by
  constructor
  · rintro ⟨names, hrel, hfree⟩
    unfold relative at hrel
    split at hrel
    · next heq =>
      subst heq
      exact ⟨[], by simp, nofun⟩
    · split at hrel
      · cases hrel
      · next habs =>
        rcases hstrip : stripCommon base.parts targ.parts with ⟨_ | ⟨b, bs⟩, rest⟩
        · simp only [hstrip, Option.some.injEq] at hrel
          subst hrel
          refine ⟨rest, ?_, hfree⟩
          rw [not_not.mp habs, ← append_of_stripCommon hstrip]
        · simp only [hstrip] at hrel
          split at hrel
          · cases hrel
          · cases hrel
            exact absurd List.infix_rfl (hfree ['.', '.'] (by simp))
  · rintro ⟨names, rfl, hfree⟩
    by_cases hnames : names = []
    · subst hnames
      refine ⟨[['.']], ?_, by decide⟩
      simp [relative]
    · refine ⟨names, ?_, hfree⟩
      have hne : base ≠ ⟨base.absolute, base.parts ++ names⟩ := by
        intro heq
        have hlength := congrArg (fun p => p.parts.length) heq
        simp [hnames] at hlength
      unfold relative
      rw [if_neg hne, if_neg (by simp), stripCommon_append]

theorem locate_names {cwd : List Text} {base : PurePath} {names : List Text}
    (h : ∀ name ∈ names, name ≠ ['.', '.']) :
    locate cwd ⟨base.absolute, base.parts ++ names⟩ = locate cwd base ++ names := by
  induction names using List.reverseRecOn with
  | nil => simp [locate]
  | append_singleton names name ih =>
    rw [← List.append_assoc, locate_append, ih fun n hn => h n (List.mem_append_left _ hn), descend,
      if_neg (h name (by simp)), List.append_assoc]

end PurePath

end Rdfm.Lib
