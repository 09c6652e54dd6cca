import Rdfm.Lib.LinkTree

/-!
# Access to files

`isFsAccessAllowed` resolves the links of the base directory and of the requested file, takes the
relative path from the one to the other, and refuses it if two dots stand anywhere in it. Nothing
outside the base directory is ever allowed (`allowed_within`). A file inside it is allowed exactly
if both paths resolve from the same start, and none of the names on the way has two dots in a row
(`access_allowed_iff`).
-/

namespace Rdfm.Linux

open Rdfm.Lib

/-- The links that `filepath.EvalSymlinks` follows before it gives up. -/
def maxLinksWalked : Nat := 255

/-- `filepath.EvalSymlinks`, from the directory `cwd`; the path it returns is clean. -/
def evalSymlinks (tree : LinkTree) (cwd : List Text) (path : Text) : Option PurePath :=
  tree.walk cwd maxLinksWalked ⟨isAbsolute path, []⟩ (path.splitOn '/')

/-- `filepath.Rel`, of clean paths. -/
def rel (base targ : PurePath) : Option Text := (base.relative targ).map (['/'].intercalate ·)

def isFsAccessAllowed (tree : LinkTree) (cwd : List Text) (fileSystemBaseDir file : Text) : Bool :=
  match evalSymlinks tree cwd fileSystemBaseDir with
  | none => false
  | some baseDir =>
    match evalSymlinks tree cwd file with
    | none => false
    | some file =>
      match rel baseDir file with
      | none => false
      | some relPath => ¬ ['.', '.'] <:+: relPath

/-! ## What is expected -/

/-- Both paths resolve, and the file is the base directory or lies below it. -/
def Within (tree : LinkTree) (cwd : List Text) (fileSystemBaseDir file : Text) : Prop :=
  ∃ base place, tree.ResolvesTo maxLinksWalked cwd fileSystemBaseDir base ∧
    tree.ResolvesTo maxLinksWalked cwd file place ∧ base <+: place

/-- A file below the base directory has a resolved path that begins with that of the base directory,
and no name after it has two dots in a row. -/
def PlainlyBelow (tree : LinkTree) (cwd : List Text) (fileSystemBaseDir file : Text) : Prop :=
  ∀ base place, evalSymlinks tree cwd fileSystemBaseDir = some base →
    evalSymlinks tree cwd file = some place → base.locate cwd <+: place.locate cwd →
      ∃ names, place = ⟨base.absolute, base.parts ++ names⟩ ∧
        ∀ name ∈ names, ¬ ['.', '.'] <:+: name

variable {tree : LinkTree} {cwd : List Text} {path fileSystemBaseDir file : Text}

/-- `EvalSymlinks` finds what a path leads to. -/
theorem evalSymlinks_iff {place : List Text} :
    tree.ResolvesTo maxLinksWalked cwd path place ↔
      ∃ d, evalSymlinks tree cwd path = some d ∧ d.locate cwd = place := by
  unfold evalSymlinks
  rw [LinkTree.walk_iff]
  rfl

theorem within_iff : Within tree cwd fileSystemBaseDir file ↔
    ∃ base place, evalSymlinks tree cwd fileSystemBaseDir = some base ∧
      evalSymlinks tree cwd file = some place ∧ base.locate cwd <+: place.locate cwd := by
  unfold Within
  simp only [evalSymlinks_iff]
  constructor
  · rintro ⟨-, -, ⟨base, hbase, rfl⟩, ⟨place, hplace, rfl⟩, hbelow⟩
    exact ⟨base, place, hbase, hplace, hbelow⟩
  · rintro ⟨base, place, hbase, hplace, hbelow⟩
    exact ⟨_, _, ⟨base, hbase, rfl⟩, ⟨place, hplace, rfl⟩, hbelow⟩

theorem rel_iff {base targ : PurePath} :
    (∃ relPath, rel base targ = some relPath ∧ ¬ ['.', '.'] <:+: relPath) ↔
      ∃ names, targ = ⟨base.absolute, base.parts ++ names⟩ ∧
        ∀ name ∈ names, ¬ ['.', '.'] <:+: name := by
  rw [← PurePath.relative_eq_iff]
  have hdots : ∀ names : List Text, ¬ ['.', '.'] <:+: ['/'].intercalate names ↔
      ∀ name ∈ names, ¬ ['.', '.'] <:+: name := by
    intro names
    rw [PurePath.infix_intercalate_iff (by decide) (by decide)]
    simp
  simp only [rel, Option.map_eq_some_iff]
  constructor
  · rintro ⟨-, ⟨names, hrel, rfl⟩, hfree⟩
    exact ⟨names, hrel, (hdots names).mp hfree⟩
  · rintro ⟨names, hrel, hfree⟩
    exact ⟨_, ⟨names, hrel, rfl⟩, (hdots names).mpr hfree⟩

theorem isFsAccessAllowed_iff : isFsAccessAllowed tree cwd fileSystemBaseDir file = true ↔
    ∃ base place, evalSymlinks tree cwd fileSystemBaseDir = some base ∧
      evalSymlinks tree cwd file = some place ∧
        ∃ names, place = ⟨base.absolute, base.parts ++ names⟩ ∧
          ∀ name ∈ names, ¬ ['.', '.'] <:+: name := by
  simp only [← rel_iff]
  unfold isFsAccessAllowed
  cases hbase : evalSymlinks tree cwd fileSystemBaseDir with
  | none => simp
  | some base =>
    cases hplace : evalSymlinks tree cwd file with
    | none => simp
    | some place => cases hrel : rel base place <;> simp [hrel]

/-- Nothing outside the base directory is allowed. -/
theorem allowed_within (h : isFsAccessAllowed tree cwd fileSystemBaseDir file = true) :
    Within tree cwd fileSystemBaseDir file := by
  rcases isFsAccessAllowed_iff.mp h with ⟨base, place, hbase, hplace, names, rfl, hfree⟩
  refine within_iff.mpr ⟨base, _, hbase, hplace, ?_⟩
  rw [PurePath.locate_names fun name hname hdots => hfree name hname (hdots ▸ List.infix_rfl)]
  exact List.prefix_append _ _

/-- **Access is allowed exactly to what resolves to the base directory or below it, if and only if a
file below has a resolved path that begins with that of the base directory, without two dots in a
row in any name after it.** -/
theorem access_allowed_iff (tree : LinkTree) (cwd : List Text) (fileSystemBaseDir file : Text) :
    (isFsAccessAllowed tree cwd fileSystemBaseDir file = true ↔
        Within tree cwd fileSystemBaseDir file) ↔
      PlainlyBelow tree cwd fileSystemBaseDir file := by
  constructor
  · intro hiff base place hbase hplace hbelow
    have hallowed := hiff.mpr (within_iff.mpr ⟨base, place, hbase, hplace, hbelow⟩)
    rcases isFsAccessAllowed_iff.mp hallowed with ⟨base', place', hbase', hplace', hnames⟩
    cases hbase.symm.trans hbase'
    cases hplace.symm.trans hplace'
    exact hnames
  · intro hplain
    refine ⟨allowed_within, fun hwithin => ?_⟩
    rcases within_iff.mp hwithin with ⟨base, place, hbase, hplace, hbelow⟩
    have hnames := hplain base place hbase hplace hbelow
    exact isFsAccessAllowed_iff.mpr ⟨base, place, hbase, hplace, hnames⟩

/-- A root directory with one file. -/
def singleFileTree (name : Text) (hname : IsName name) : LinkTree where
  node place := if place = [] then some .dir else if place = [name] then some .file else none
  root := rfl
  parent place name' h := by
    rw [if_neg (by simp)] at h
    have hplace : place ++ [name'] = [] ++ [name] := by
      by_contra hne
      exact h (if_neg hne)
    have hnil : place = [] := (List.append_inj' hplace rfl).1
    rw [if_pos hnil]
  names place h name' hmem := by
    by_cases hnil : place = []
    · rw [hnil] at hmem
      cases hmem
    · rw [if_neg hnil] at h
      have hplace : place = [name] := by
        by_contra hne
        exact h (if_neg hne)
      rw [hplace, List.mem_singleton] at hmem
      rw [hmem]
      exact hname

theorem isName_dotted : IsName "a..b".toList := by
  constructor <;> decide

/-- The file `a..b` of the base directory is refused, and so is each file that is asked for by a
relative path. -/
theorem access_refused_inside :
    ¬ (isFsAccessAllowed (singleFileTree "a..b".toList isName_dotted) [] "/".toList "/a..b".toList =
          true ↔
        Within (singleFileTree "a..b".toList isName_dotted) [] "/".toList "/a..b".toList) ∧
      ¬ (isFsAccessAllowed (singleFileTree "a..b".toList isName_dotted) [] "/".toList
          "a..b".toList = true ↔
        Within (singleFileTree "a..b".toList isName_dotted) [] "/".toList "a..b".toList) := by
  have hbase : evalSymlinks (singleFileTree "a..b".toList isName_dotted) [] "/".toList =
      some ⟨true, []⟩ := by decide
  refine ⟨fun h => ?_, fun h => ?_⟩
  · have hfile : evalSymlinks (singleFileTree "a..b".toList isName_dotted) [] "/a..b".toList =
        some ⟨true, ["a..b".toList]⟩ := by decide
    exact absurd (h.mpr (within_iff.mpr ⟨_, _, hbase, hfile, List.nil_prefix⟩)) (by decide)
  · have hfile : evalSymlinks (singleFileTree "a..b".toList isName_dotted) [] "a..b".toList =
        some ⟨false, ["a..b".toList]⟩ := by decide
    exact absurd (h.mpr (within_iff.mpr ⟨_, _, hbase, hfile, List.nil_prefix⟩)) (by decide)

end Rdfm.Linux
