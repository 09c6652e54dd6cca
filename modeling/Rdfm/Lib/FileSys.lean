import Rdfm.Lib.DeviceFile
import Mathlib.Data.List.Basic

/-!
# Files by path

A file system as a map from clean paths to regular files, with the operations an installer makes:
truncate-and-write, remove, make a directory. The mode of a file is set when it is created and kept
when it is written again. `joinPath` is the lexical join of two paths.
-/

namespace Rdfm.Lib

/-! ## Paths -/

/-- Text, character by character. -/
abbrev Text := List Char

/-- One step of the lexical cleaning of a path, on the reversed segments before it. -/
def cleanSegment (rooted : Bool) (before : List Text) (segment : Text) : List Text :=
  if segment = [] ∨ segment = ['.'] then before
  else if segment = ['.', '.'] then
    match before with
    | [] => if rooted then [] else [segment]
    | last :: rest => if last = ['.', '.'] then segment :: before else rest
  else segment :: before

def cleanPath (path : Text) : Text :=
  let rooted : Bool := path.head? = some '/'
  let segments := ((path.splitOn '/').foldl (cleanSegment rooted) []).reverse
  let relative := ['/'].intercalate segments
  if rooted then '/' :: relative
  else if relative = [] then ['.']
  else relative

def joinPath (dir file : Text) : Text :=
  if dir = [] ∧ file = [] then []
  else if dir = [] then cleanPath file
  else if file = [] then cleanPath dir
  else cleanPath (dir ++ '/' :: file)

example : joinPath "/etc//app/".toList "../x.conf".toList = "/etc/x.conf".toList := by decide

theorem cleanPath_ne_nil (path : Text) : cleanPath path ≠ [] := by
  unfold cleanPath
  dsimp only
  split
  · exact List.cons_ne_nil _ _
  · split
    · exact List.cons_ne_nil _ _
    · next h => exact h

theorem joinPath_ne_nil {dir : Text} (hdir : dir ≠ []) (file : Text) : joinPath dir file ≠ [] := by
  unfold joinPath
  rw [if_neg (fun h => hdir h.1), if_neg hdir]
  split <;> exact cleanPath_ne_nil _

/-! ### A longer name is a longer path -/

/-- The text of reversed segments. -/
def joinSegments (before : List Text) : Text := ['/'].intercalate before.reverse

theorem length_joinSegments_cons (segment : Text) (before : List Text) :
    (joinSegments (segment :: before)).length =
      if before = [] then segment.length else (joinSegments before).length + 1 + segment.length := by
  have hconcat : ∀ (segments : List Text), segments ≠ [] →
      (['/'].intercalate (segments ++ [segment])).length =
        (['/'].intercalate segments).length + 1 + segment.length := by
    intro segments
    induction segments with
    | nil => exact fun h => absurd rfl h
    | cons x xs ih =>
      intro _
      cases xs with
      | nil => simp [List.intercalate]; omega
      | cons y ys =>
        have := ih (List.cons_ne_nil y ys)
        rw [List.cons_append, List.cons_append, List.intercalate_cons_cons,
          List.intercalate_cons_cons, ← List.cons_append]
        simp only [List.length_append]
        omega
  unfold joinSegments
  rw [List.reverse_cons]
  split
  · next h => simp [h, List.intercalate]
  · next h => exact hconcat before.reverse (fun hr => h (List.reverse_eq_nil_iff.mp hr))

theorem length_cleanSegment (rooted : Bool) (before : List Text) (segment ext : Text)
    (hext : 3 ≤ ext.length) :
    (joinSegments (cleanSegment rooted before segment)).length + 3 ≤
      (joinSegments ((segment ++ ext) :: before)).length := by
  have hnil : (joinSegments []).length = 0 := rfl
  rw [length_joinSegments_cons, List.length_append]
  unfold cleanSegment
  split
  · split
    · next hb => rw [hb, hnil]; omega
    · omega
  · split
    · next hdots =>
      have htwo : segment.length = 2 := by rw [hdots]; rfl
      cases before with
      | nil =>
        simp only [if_true]
        split
        · rw [hnil]; omega
        · rw [length_joinSegments_cons, if_pos rfl]; omega
      | cons last rest =>
        have hlast := length_joinSegments_cons last rest
        simp only [List.cons_ne_nil, if_false]
        split
        · rw [length_joinSegments_cons segment, if_neg (List.cons_ne_nil _ _)]; omega
        · split at hlast
          · next hr => rw [hr, hnil]; omega
          · omega
    · rw [length_joinSegments_cons]
      split <;> omega

/-- A name with an extension is no special segment. -/
theorem cleanSegment_append (rooted : Bool) (before : List Text) (file : Text) {ext : Text}
    (hlen : 3 ≤ ext.length) : cleanSegment rooted before (file ++ ext) = (file ++ ext) :: before := by
  have h3 : 3 ≤ (file ++ ext).length := by
    rw [List.length_append]
    omega
  unfold cleanSegment
  rw [if_neg, if_neg]
  · intro h
    rw [h] at h3
    simp at h3
  · rintro (h | h)
    · rw [h] at h3
      simp at h3
    · rw [h] at h3
      simp at h3

theorem append_ext_ne_nil (file : Text) {ext : Text} (hlen : 3 ≤ ext.length) : file ++ ext ≠ [] := by
  intro hnil
  rw [(List.append_eq_nil_iff.mp hnil).2] at hlen
  simp at hlen

theorem cleanPath_of_split {dir file : Text} (hdir : dir ≠ []) (hfile : '/' ∉ file) :
    ∃ rooted before, ∀ ext, '/' ∉ ext →
      cleanPath (dir ++ '/' :: (file ++ ext)) =
        let relative := joinSegments (cleanSegment rooted before (file ++ ext))
        if rooted then '/' :: relative else if relative = [] then ['.'] else relative := by
  refine ⟨decide (dir.head? = some '/'),
    (dir.splitOn '/').foldl (cleanSegment (decide (dir.head? = some '/'))) [], ?_⟩
  intro ext hext
  have hhead : (dir ++ '/' :: (file ++ ext)).head? = dir.head? := by
    cases dir with
    | nil => exact absurd rfl hdir
    | cons c cs => rfl
  have hslash : '/' ∉ file ++ ext := by
    rw [List.mem_append]
    exact not_or.mpr ⟨hfile, hext⟩
  unfold cleanPath
  rw [hhead, List.splitOn_append_cons_self, List.splitOn_eq_singleton hslash]
  simp only [List.foldl_append]
  rfl

/-- A name with an extension is never the path of the name itself. -/
theorem joinPath_ne_append {dir file ext : Text} (hdir : dir ≠ []) (hfile : '/' ∉ file)
    (hext : '/' ∉ ext) (hlen : 3 ≤ ext.length) :
    joinPath dir file ≠ joinPath dir (file ++ ext) := by
  have hne := append_ext_ne_nil file hlen
  rcases cleanPath_of_split hdir hfile with ⟨rooted, before, hclean⟩
  have hdest : joinPath dir file = cleanPath (dir ++ '/' :: (file ++ [])) := by
    unfold joinPath
    rw [if_neg (fun h => hdir h.1), if_neg hdir, List.append_nil]
    split
    · next hnil =>
      subst hnil
      unfold cleanPath
      have hhead : (dir ++ ['/']).head? = dir.head? := by
        cases dir with
        | nil => exact absurd rfl hdir
        | cons c cs => rfl
      rw [hhead, List.splitOn_append_cons_self]
      simp only [List.foldl_append]
      rfl
    · rfl
  have hbackup : joinPath dir (file ++ ext) = cleanPath (dir ++ '/' :: (file ++ ext)) := by
    unfold joinPath
    rw [if_neg (fun h => hdir h.1), if_neg hdir, if_neg hne]
  have hspecial := cleanSegment_append rooted before file hlen
  have hlonger := length_cleanSegment rooted before file ext hlen
  intro heq
  rw [hdest, hbackup, hclean [] List.not_mem_nil, hclean ext hext, hspecial, List.append_nil] at heq
  have hlength := congrArg List.length heq
  dsimp only at hlength
  split at hlength
  · simp only [List.length_cons] at hlength
    omega
  · split at hlength
    · split at hlength
      · next h => rw [h] at hlonger; simp at hlonger
      · simp only [List.length_cons, List.length_nil] at hlength
        omega
    · split at hlength
      · next h => rw [h] at hlonger; simp at hlonger
      · omega

/-- The path of a name by itself. -/
theorem cleanPath_name {name : Text} (h : '/' ∉ name) :
    cleanPath name =
      if joinSegments (cleanSegment false [] name) = [] then ['.']
      else joinSegments (cleanSegment false [] name) := by
  have hrooted : (decide (name.head? = some '/') : Bool) = false := by
    rw [decide_eq_false_iff_not]
    intro hhead
    exact h (List.mem_of_mem_head? hhead)
  unfold cleanPath
  rw [hrooted, List.splitOn_eq_singleton h]
  rfl

theorem joinPath_nil_ne_append {file ext : Text} (hfile : '/' ∉ file) (hext : '/' ∉ ext)
    (hlen : 3 ≤ ext.length) : joinPath [] file ≠ joinPath [] (file ++ ext) := by
  have hslash : '/' ∉ file ++ ext := by
    rw [List.mem_append]
    exact not_or.mpr ⟨hfile, hext⟩
  have hne := append_ext_ne_nil file hlen
  have hlonger := length_cleanSegment false [] file ext hlen
  have hspecial := cleanSegment_append false [] file hlen
  have hbackup : joinPath [] (file ++ ext) = joinSegments [file ++ ext] := by
    unfold joinPath
    rw [if_neg fun h => hne h.2, if_pos rfl, cleanPath_name hslash, hspecial, if_neg]
    intro hnil
    rw [hnil] at hlonger
    simp at hlonger
  rw [hbackup]
  intro heq
  have hlength := congrArg List.length heq
  unfold joinPath at hlength
  split at hlength
  · simp only [List.length_nil] at hlength
    omega
  · rw [if_pos rfl, cleanPath_name hfile] at hlength
    split at hlength
    · next hnil =>
      rw [hnil] at hlonger
      simp only [List.length_nil, List.length_cons] at hlonger hlength
      omega
    · omega

/-! ## Files -/

structure RegularFile where
  content : Bytes
  mode : Nat
deriving DecidableEq, Repr

structure FileSys where
  files : Text → Option RegularFile
  dirs : Text → Bool
  /-- The mode of a new file, from the one asked for. -/
  creationMode : Nat → Nat

namespace FileSys

variable (fs : FileSys) (path : Text)

/-- No file has the empty path. -/
def read : Option RegularFile := if path = [] then none else fs.files path

def update (file : Option RegularFile) : FileSys :=
  { fs with files := fun p => if p = path then file else fs.files p }

/-- Open with truncation, create if need be, and write. -/
def write (mode : Nat) (content : Bytes) : FileSys :=
  fs.update path (some ⟨content, ((fs.files path).map RegularFile.mode).getD (fs.creationMode mode)⟩)

def remove : FileSys := fs.update path none

def mkdirAll : FileSys := { fs with dirs := fun d => if d = path then true else fs.dirs d }

/-- Open with truncation: the file is created if need be, its directory is not. -/
def create (dir : Text) (mode : Nat) (fails : Bool) : Option FileSys :=
  if fails || !fs.dirs dir then none else some (fs.write path mode [])

/-- What a copy has written when it ends, or fails after a number of bytes. -/
def copied (fails : Option Nat) (data : Bytes) : Bytes :=
  match fails with
  | none => data
  | some n => data.take n

variable {fs path} {p : Text} {mode : Nat} {content : Bytes}

@[simp] theorem write_self : (fs.write path mode content).files path =
    some ⟨content, ((fs.files path).map RegularFile.mode).getD (fs.creationMode mode)⟩ := if_pos rfl

theorem write_of_ne (h : p ≠ path) : (fs.write path mode content).files p = fs.files p := if_neg h

@[simp] theorem remove_self : (fs.remove path).files path = none := if_pos rfl

theorem remove_of_ne (h : p ≠ path) : (fs.remove path).files p = fs.files p := if_neg h

theorem read_of_ne_empty (h : path ≠ []) : fs.read path = fs.files path := if_neg h

theorem create_eq (dir : Text) (mode : Nat) (fails : Bool) :
    fs.create path dir mode fails =
      if fails = false ∧ fs.dirs dir = true then some (fs.write path mode []) else none := by
  unfold create
  cases fails with
  | true => rfl
  | false =>
    cases hdirs : fs.dirs dir with
    | false => rfl
    | true => rfl

/-- Only what is written last stays. -/
@[simp] theorem write_write {content' : Bytes} :
    (fs.write path mode content).write path mode content' = fs.write path mode content' := by
  have hfiles : ((fs.write path mode content).write path mode content').files =
      (fs.write path mode content').files := by
    funext p
    by_cases hp : p = path
    · subst hp
      rw [write_self, write_self, write_self, Option.map_some, Option.getD_some]
    · rw [write_of_ne hp, write_of_ne hp, write_of_ne hp]
  exact congrArg (fun files => (⟨files, fs.dirs, fs.creationMode⟩ : FileSys)) hfiles

end FileSys

end Rdfm.Lib
