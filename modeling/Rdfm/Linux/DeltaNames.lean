import Rdfm.Linux.DeltaInstall

/-!
# The file names of deltas

`ArtifactDelta.Delta` puts a size and an engine behind the name of its temporary file, and
`storeUpdateDelta` looks for them at the end of the name, in slices that it indexes without a check.
What the tool writes is read back whatever dots the temporary name has, and so is the older form
that ends in `delta`; and no name that `StoreUpdate` takes for a delta is too short for the indices
(`deltaName_codec`).
-/

namespace Rdfm.Linux

open Rdfm.Lib

/-! ## The name in the tool, and in the installer -/

/-- The name that `Delta` renames its temporary file to. -/
def deltaName (tmp : String) (payloadSize : Nat) (engine : DeltaEngine) : String :=
  tmp ++ "." ++ String.ofList (itoa payloadSize) ++ "." ++ engine.name

/-- The name before there were several engines. -/
def legacyDeltaName (tmp : String) (payloadSize : Nat) : String :=
  tmp ++ "." ++ String.ofList (itoa payloadSize) ++ "." ++ "delta"

inductive NameStop where
  /-- `index out of range`. -/
  | panicked
  | rejected (e : InstallError)
deriving DecidableEq, Repr

/-- `parts[i]`. -/
def index (parts : List String) (i : Int) : Except NameStop String :=
  if i < 0 then .error .panicked
  else
    match parts[i.toNat]? with
    | some part => .ok part
    | none => .error .panicked

/-- The size and the engine that `storeUpdateDelta` finds in a name. -/
def parseDeltaName (name : String) : Except NameStop (Int × DeltaEngine) := do
  let deltaSigParts := splitDots name
  let size ← index deltaSigParts (deltaSigParts.length - 2)
  match parseInt 10 64 size.toList with
  | none => .error (.rejected (.imageSize name))
  | some imageSize =>
    let last ← index deltaSigParts (deltaSigParts.length - 1)
    let deltaAlgo := if last = "delta" then "rsync" else last
    match parseDeltaEngine deltaAlgo with
    | none => .error (.rejected (.algorithm deltaAlgo))
    | some deltaEngine => .ok (imageSize, deltaEngine)

/-- The names that `StoreUpdate` takes for deltas. -/
def isDelta (name : String) : Bool :=
  hasSuffix name ".delta" || hasSuffix name ".xdelta" || hasSuffix name ".rsync"

/-! ## The parts of a name -/

section Parts

variable {name size algo : String} {rest : List String}

theorem splitDots_append (pre post : String) :
    splitDots (pre ++ "." ++ post) = splitDots pre ++ splitDots post := by
  unfold splitDots
  have hlist : (pre ++ "." ++ post).toList = pre.toList ++ '.' :: post.toList := by
    simp [String.toList_append]
  rw [hlist, List.splitOn_append_cons_self, List.map_append]

theorem splitDots_of_not_mem (h : '.' ∉ name.toList) : splitDots name = [name] := by
  unfold splitDots
  rw [List.splitOn_eq_singleton h, List.map_singleton, String.ofList_toList]

theorem splitDots_ne_nil (name : String) : splitDots name ≠ [] := by
  unfold splitDots
  rw [ne_eq, List.map_eq_nil_iff]
  exact List.splitOn_ne_nil _ _

/-- Two parts without dots are found at the end. -/
theorem splitDots_parts (pre : String) (hsize : '.' ∉ size.toList) (halgo : '.' ∉ algo.toList) :
    splitDots (pre ++ "." ++ size ++ "." ++ algo) = splitDots pre ++ [size, algo] := by
  rw [splitDots_append, splitDots_append, splitDots_of_not_mem hsize, splitDots_of_not_mem halgo,
    List.append_assoc, List.singleton_append]

theorem hasSuffix_iff (name suffix : String) :
    hasSuffix name suffix = true ↔ ∃ pre, name = pre ++ suffix := by
  unfold hasSuffix
  rw [List.isSuffixOf_iff_suffix]
  constructor
  · rintro ⟨pre, h⟩
    refine ⟨String.ofList pre, String.toList_injective ?_⟩
    rw [String.toList_append, String.toList_ofList, h]
  · rintro ⟨pre, rfl⟩
    exact ⟨pre.toList, String.toList_append.symm⟩

theorem isDelta_of_suffix {suffix : String} (h : hasSuffix name suffix = true)
    (hsuffix : suffix = ".delta" ∨ suffix = ".xdelta" ∨ suffix = ".rsync") :
    isDelta name = true := by
  unfold isDelta
  rcases hsuffix with rfl | rfl | rfl
  · rw [h, Bool.true_or, Bool.true_or]
  · rw [h, Bool.or_true, Bool.true_or]
  · rw [h, Bool.or_true]

/-- Every name with one of the suffixes has two parts at least. -/
theorem exists_parts_of_isDelta (h : isDelta name = true) :
    ∃ rest size algo, splitDots name = rest ++ [size, algo] := by
  have hparts (ending : String) (hs : hasSuffix name ("." ++ ending) = true)
      (hending : '.' ∉ ending.toList) :
      ∃ rest size algo, splitDots name = rest ++ [size, algo] := by
    obtain ⟨pre, rfl⟩ := (hasSuffix_iff _ _).mp hs
    obtain ⟨rest, size, hrest⟩ := List.eq_nil_or_concat (splitDots pre) |>.resolve_left
      (splitDots_ne_nil pre)
    refine ⟨rest, size, ending, ?_⟩
    rw [← String.append_assoc, splitDots_append, splitDots_of_not_mem hending, hrest]
    simp
  unfold isDelta at h
  rw [Bool.or_eq_true, Bool.or_eq_true] at h
  rcases h with (h | h) | h
  · exact hparts "delta" h (by decide)
  · exact hparts "xdelta" h (by decide)
  · exact hparts "rsync" h (by decide)

theorem index_size (rest : List String) (size algo : String) :
    index (rest ++ [size, algo]) ((rest ++ [size, algo]).length - 2) = .ok size := by
  have hi : ((rest ++ [size, algo]).length : Int) - 2 = rest.length := by simp
  unfold index
  rw [hi, if_neg (by omega), Int.toNat_natCast, List.getElem?_append_right (Nat.le_refl _),
    Nat.sub_self]
  rfl

theorem index_algo (rest : List String) (size algo : String) :
    index (rest ++ [size, algo]) ((rest ++ [size, algo]).length - 1) = .ok algo := by
  have hi : ((rest ++ [size, algo]).length : Int) - 1 = (rest.length + 1 : Nat) := by
    simp
    omega
  unfold index
  rw [hi, if_neg (by omega), Int.toNat_natCast, List.getElem?_append_right (Nat.le_succ _),
    Nat.succ_sub (Nat.le_refl _), Nat.sub_self]
  rfl

/-- What is read from the last two parts. -/
theorem parseDeltaName_of_parts (h : splitDots name = rest ++ [size, algo]) :
    parseDeltaName name =
      match parseInt 10 64 size.toList with
      | none => .error (.rejected (.imageSize name))
      | some imageSize =>
        match parseDeltaEngine (if algo = "delta" then "rsync" else algo) with
        | none => .error (.rejected (.algorithm (if algo = "delta" then "rsync" else algo)))
        | some deltaEngine => .ok (imageSize, deltaEngine) := by
  unfold parseDeltaName
  dsimp only
  rw [h, index_size, index_algo]
  rfl

end Parts

/-! ## Reading a name back -/

section Names

variable {tmp : String} {size : Nat} {engine : DeltaEngine}

theorem DeltaEngine.not_mem_name (engine : DeltaEngine) : '.' ∉ engine.name.toList := by
  cases engine <;> decide

theorem splitDots_size (tmp : String) (size : Nat) {algo : String} (halgo : '.' ∉ algo.toList) :
    splitDots (tmp ++ "." ++ String.ofList (itoa size) ++ "." ++ algo) =
      splitDots tmp ++ [String.ofList (itoa size), algo] := by
  apply splitDots_parts _ _ halgo
  rw [String.toList_ofList]
  exact not_mem_itoa rfl

theorem isDelta_deltaName (tmp : String) (size : Nat) (engine : DeltaEngine) :
    isDelta (deltaName tmp size engine) = true := by
  have hsuffix : hasSuffix (deltaName tmp size engine) ("." ++ engine.name) = true := by
    rw [hasSuffix_iff]
    exact ⟨tmp ++ "." ++ String.ofList (itoa size), String.append_assoc⟩
  apply isDelta_of_suffix hsuffix
  cases engine with
  | rsync => exact .inr (.inr rfl)
  | xdelta => exact .inr (.inl rfl)

theorem isDelta_legacyDeltaName (tmp : String) (size : Nat) :
    isDelta (legacyDeltaName tmp size) = true := by
  have hsuffix : hasSuffix (legacyDeltaName tmp size) ("." ++ "delta") = true := by
    rw [hasSuffix_iff]
    exact ⟨tmp ++ "." ++ String.ofList (itoa size), String.append_assoc⟩
  exact isDelta_of_suffix hsuffix (.inl rfl)

theorem parseDeltaName_deltaName (hsize : size < 2 ^ 63) :
    parseDeltaName (deltaName tmp size engine) = .ok (size, engine) := by
  have hlegacy : engine.name ≠ "delta" := by cases engine <;> decide
  have hparse : parseInt 10 64 (itoa size) = some (size : Int) := parseInt_itoa hsize
  rw [deltaName, parseDeltaName_of_parts (splitDots_size tmp size engine.not_mem_name),
    String.toList_ofList, hparse]
  dsimp only
  rw [if_neg hlegacy, parseDeltaEngine_name]

theorem parseDeltaName_legacyDeltaName (hsize : size < 2 ^ 63) :
    parseDeltaName (legacyDeltaName tmp size) = .ok (size, .rsync) := by
  have hparse : parseInt 10 64 (itoa size) = some (size : Int) := parseInt_itoa hsize
  have halgo : '.' ∉ "delta".toList := by decide
  rw [legacyDeltaName, parseDeltaName_of_parts (splitDots_size tmp size halgo),
    String.toList_ofList, hparse]
  rfl

/-- No delta is too short for the indices. -/
theorem parseDeltaName_ne_panicked {name : String} (h : isDelta name = true) :
    parseDeltaName name ≠ .error .panicked := by
  obtain ⟨rest, size, algo, hparts⟩ := exists_parts_of_isDelta h
  rw [parseDeltaName_of_parts hparts]
  cases parseInt 10 64 size.toList with
  | none => nofun
  | some imageSize =>
    dsimp only
    cases parseDeltaEngine (if algo = "delta" then "rsync" else algo) with
    | none => nofun
    | some deltaEngine => nofun

end Names

/-! ## The installer -/

section Store

variable (lib : DeltaEngine → EngineLib)
  (realDev : DeltaFile → Bytes → Option InstallError × Bytes) (io : InstallFaults) (p : Partitions)

/-- The rest of `storeUpdateDelta`; `none` if it has panicked. -/
def storeParsed (data : Bytes) :
    Except NameStop (Int × DeltaEngine) → Option (Option InstallError × Bytes)
  | .ok (imageSize, engine) => some (writeDeltaToInactive (lib engine) io p data imageSize)
  | .error (.rejected e) => some (some e, p.inactive)
  | .error .panicked => none

/-- `StoreUpdate` installs a delta by what its name says. -/
theorem storeUpdate_of_isDelta {f : DeltaFile} (h : isDelta f.name = true) :
    storeParsed lib io p f.data (parseDeltaName f.name) = some (storeUpdate lib realDev io p f) := by
  obtain ⟨rest, size, algo, hparts⟩ := exists_parts_of_isDelta h
  unfold isDelta at h
  unfold storeUpdate storeUpdateDelta
  rw [if_pos h, parseDeltaName_of_parts hparts, hparts, List.reverse_append]
  simp only [List.reverse_cons, List.reverse_nil, List.nil_append, List.cons_append]
  cases parseInt 10 64 size.toList with
  | none => rfl
  | some imageSize =>
    dsimp only
    cases parseDeltaEngine (if algo = "delta" then "rsync" else algo) with
    | none => rfl
    | some deltaEngine => rfl

end Store

/-- The tool names its file by the size of the base image. -/
theorem artifactDelta_name (lib : DeltaEngine → EngineLib) (engine : DeltaEngine) (tmp : String)
    (base target : Bytes) :
    (artifactDelta lib engine tmp base target).name = deltaName tmp base.length engine := rfl

/-- Names are read back as they were written, in both forms, and every name of a delta is read or
rejected. -/
theorem deltaName_codec :
    (∀ tmp size engine, size < 2 ^ 63 → isDelta (deltaName tmp size engine) = true ∧
      ∃ found, parseDeltaName (deltaName tmp size engine) = .ok (size, found) ∧
        found.name = engine.name) ∧
    (∀ tmp size, size < 2 ^ 63 → isDelta (legacyDeltaName tmp size) = true ∧
      parseDeltaName (legacyDeltaName tmp size) = .ok (size, .rsync)) ∧
    (∀ name, isDelta name = true → (∃ size engine, parseDeltaName name = .ok (size, engine)) ∨
      ∃ e, parseDeltaName name = .error (.rejected e)) ∧
    (∀ lib realDev io p f, isDelta f.name = true →
      storeParsed lib io p f.data (parseDeltaName f.name) =
        some (storeUpdate lib realDev io p f)) := by
  refine ⟨fun tmp size engine hsize => ?_, fun tmp size hsize => ?_, fun name h => ?_, ?_⟩
  · exact ⟨isDelta_deltaName tmp size engine, engine, parseDeltaName_deltaName hsize, rfl⟩
  · exact ⟨isDelta_legacyDeltaName tmp size, parseDeltaName_legacyDeltaName hsize⟩
  · have hne := parseDeltaName_ne_panicked h
    cases hparse : parseDeltaName name with
    | ok found => exact .inl ⟨found.1, found.2, rfl⟩
    | error stop =>
      cases stop with
      | panicked => exact absurd hparse hne
      | rejected e => exact .inr ⟨e, rfl⟩
  · exact fun lib realDev io p f h => storeUpdate_of_isDelta lib realDev io p h

theorem deltaName_codec_dots :
    parseDeltaName (deltaName "rootfs.v1.2" 1048576 .xdelta) = .ok (1048576, .xdelta) ∧
      parseDeltaName (legacyDeltaName "rootfs.v1.2" 1048576) = .ok (1048576, .rsync) ∧
      ((∃ size engine, parseDeltaName ".delta" = .ok (size, engine)) ∨
        ∃ e, parseDeltaName ".delta" = .error (.rejected e)) := by
  refine ⟨?_, (deltaName_codec.2.1 "rootfs.v1.2" 1048576 (by decide)).2,
    deltaName_codec.2.2.1 ".delta" (by decide)⟩
  obtain ⟨-, found, hparse, hname⟩ :=
    deltaName_codec.1 "rootfs.v1.2" 1048576 .xdelta (by decide)
  cases found with
  | xdelta => exact hparse
  | rsync => exact absurd hname (by decide)

end Rdfm.Linux
