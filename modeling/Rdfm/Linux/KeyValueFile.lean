import Rdfm.Lib.Lines
import Rdfm.Lib.MapMerge
import Rdfm.Linux.SingleFile

/-!
# Files of keys and values

`LoadKeyValueFile` reads a file with a `bufio.Scanner` line by line. Every line that the scanner
gives is checked (`loadLines_ok_iff`); but a line that does not fit the buffer of the scanner ends
the loop like the end of the file does, and the loop does not ask which it was. So the map is the
one of the file exactly if such a line comes only where an error is on the way (`loads_iff`).
-/

namespace Rdfm.Linux

open Rdfm.Lib SingleFileData

/-! ## The loader -/

inductive LoadError where
  /-- What `os.Open` reports. -/
  | notOpened
  | invalid (message : Text)
deriving DecidableEq, Repr

/-- A message about a text, which it quotes. -/
def quoting (message : String) (text : Text) : LoadError :=
  .invalid (message.toList ++ "'".toList ++ text ++ "'".toList)

/-- A key with its value. -/
abbrev Entry := (_ : Text) × Text

abbrev Pairs := AList fun _ : Text => Text

/-- `bufio.MaxScanTokenSize`. -/
def maxScanTokenSize : Nat := 64 * 1024

/-- `bufio.ScanLines` drops a carriage return at the end of a line. -/
def dropCR (line : Text) : Text := if line.getLast? = some '\r' then line.dropLast else line

/-- `strings.SplitN(line, "=", 2)`. -/
def splitN (line : Text) : List Text :=
  match line.dropWhile (· ≠ '=') with
  | [] => [line]
  | _ :: val => [line.takeWhile (· ≠ '='), val]

/-- A round of the loop up to the search for the key. -/
def parseEntry (text : Text) : Except LoadError Entry :=
  let line := trimSpace text
  match splitN line with
  | [key, val] =>
    let key := trimSpace key
    let val := trimSpace val
    if key = [] then .error (.invalid "empty key found".toList)
    else if val = [] then .error (quoting "empty value for key " key)
    else .ok ⟨key, val⟩
  | _ => .error (quoting "malformed key/value entry: " line)

/-- The loop; an absent key has the empty value. -/
def loadLines : List Text → Pairs → Except LoadError Pairs
  | [], pairs => .ok pairs
  | text :: lines, pairs =>
    match parseEntry text with
    | .error e => .error e
    | .ok ⟨key, val⟩ =>
      if (pairs.lookup key).getD [] ≠ [] then .error (quoting "duplicate key " key)
      else loadLines lines (pairs.insert key val)

/-- `LoadKeyValueFile`; `none` is a file that cannot be opened. `scanner.Err` is not called. -/
def loadKeyValueFile : Option Bytes → Except LoadError Pairs
  | none => .error .notOpened
  | some content =>
    loadLines ((scanLines '\n' maxScanTokenSize (bytesText content)).map dropCR) ∅

/-! ## The grammar -/

/-- A key and a value around the first equals sign of a line, both trimmed and not empty. -/
def IsEntry (line : Text) (e : Entry) : Prop :=
  ∃ key val, trimSpace line = key ++ '=' :: val ∧ '=' ∉ key ∧
    trimSpace key = e.1 ∧ trimSpace val = e.2 ∧ e.1 ≠ [] ∧ e.2 ≠ []

/-- The entries of a file, line by line. -/
structure Grammar (lines : List Text) (entries : List Entry) : Prop where
  entry : List.Forall₂ IsEntry lines entries
  distinct : (entries.map Sigma.fst).Nodup

/-! ## Lines -/

section Line

variable {line key val : Text} {e : Entry}

theorem splitN_append (h : '=' ∉ key) (val : Text) : splitN (key ++ '=' :: val) = [key, val] := by
  have hkey : ∀ c ∈ key, decide (c ≠ '=') = true := by
    intro c hc
    rw [decide_eq_true_eq]
    rintro rfl
    exact h hc
  unfold splitN
  rw [List.dropWhile_append_of_pos hkey, List.takeWhile_append_of_pos hkey,
    List.dropWhile_cons_of_neg (by decide), List.takeWhile_cons_of_neg (by decide),
    List.append_nil]

theorem splitN_of_not_mem (h : '=' ∉ line) : splitN line = [line] := by
  have hdrop : line.dropWhile (· ≠ '=') = [] := by
    rw [List.dropWhile_eq_nil_iff]
    intro c hc
    rw [decide_eq_true_eq]
    rintro rfl
    exact h hc
  unfold splitN
  rw [hdrop]

/-- A round of the loop accepts the entries. -/
theorem parseEntry_ok_iff : parseEntry line = .ok e ↔ IsEntry line e := by
  unfold parseEntry IsEntry
  dsimp only
  constructor
  · intro h
    by_cases hmem : '=' ∈ trimSpace line
    · obtain ⟨key, val, hline, hkey⟩ := List.eq_append_cons_of_mem hmem
      rw [hline, splitN_append hkey] at h
      dsimp only at h
      by_cases hk : trimSpace key = []
      · rw [if_pos hk] at h
        cases h
      · by_cases hv : trimSpace val = []
        · rw [if_neg hk, if_pos hv] at h
          cases h
        · rw [if_neg hk, if_neg hv] at h
          cases h
          exact ⟨key, val, hline, hkey, rfl, rfl, hk, hv⟩
    · rw [splitN_of_not_mem hmem] at h
      cases h
  · rintro ⟨key, val, hline, hkey, hk, hv, hkne, hvne⟩
    rw [hline, splitN_append hkey]
    dsimp only
    rw [hk, hv, if_neg hkne, if_neg hvne]

/-- A carriage return is white space. -/
theorem alone_carriageReturn : Alone spaces '\r' where
  mem := by decide
  only := by decide

theorem trimSpace_dropCR (line : Text) : trimSpace (dropCR line) = trimSpace line := by
  have hspaces : [] ∉ spaces := by decide
  unfold dropCR
  split
  · next hlast =>
    obtain ⟨rest, rfl⟩ := List.getLast?_eq_some_iff.mp hlast
    rw [List.dropLast_concat]
    exact (trim_concat hspaces alone_carriageReturn rest).symm
  · rfl

theorem parseEntry_dropCR (line : Text) : parseEntry (dropCR line) = parseEntry line := by
  unfold parseEntry
  rw [trimSpace_dropCR]

end Line

/-! ## The loop -/

section Loop

variable {lines : List Text} {pairs pairs' : Pairs}

theorem loadLines_dropCR (lines : List Text) (pairs : Pairs) :
    loadLines (lines.map dropCR) pairs = loadLines lines pairs := by
  induction lines generalizing pairs with
  | nil => rfl
  | cons line lines ih =>
    rw [List.map_cons, loadLines, loadLines, parseEntry_dropCR]
    cases parseEntry line with
    | error e => rfl
    | ok e =>
      dsimp only
      rw [ih]

/-- No key has the value that stands for an absent one. -/
def NoneEmpty (pairs : Pairs) : Prop := ∀ k v, pairs.lookup k = some v → v ≠ []

theorem NoneEmpty.insert (h : NoneEmpty pairs) {e : Entry} (he : e.2 ≠ []) :
    NoneEmpty (pairs.insert e.1 e.2) := by
  intro k v hk
  by_cases hkey : k = e.1
  · subst hkey
    rw [AList.lookup_insert] at hk
    cases hk
    exact he
  · rw [AList.lookup_insert_ne hkey] at hk
    exact h k v hk

theorem NoneEmpty.lookup_eq_none_iff (h : NoneEmpty pairs) (k : Text) :
    (pairs.lookup k).getD [] = [] ↔ pairs.lookup k = none := by
  cases hk : pairs.lookup k with
  | none => exact iff_of_true rfl rfl
  | some v => exact iff_of_false (h k v hk) nofun

/-- The loop accepts the lines that follow the grammar, with keys that are new. -/
theorem loadLines_ok_iff (h : NoneEmpty pairs) :
    loadLines lines pairs = .ok pairs' ↔
      ∃ entries, Grammar lines entries ∧ (∀ e ∈ entries, pairs.lookup e.1 = none) ∧
        pairs' = putAll pairs entries := by
  induction lines generalizing pairs with
  | nil =>
    constructor
    · intro hok
      cases hok
      exact ⟨[], ⟨.nil, List.nodup_nil⟩, nofun, rfl⟩
    · rintro ⟨entries, hgrammar, -, rfl⟩
      cases hgrammar.entry
      rfl
  | cons line lines ih =>
    rw [loadLines]
    constructor
    · intro hok
      cases hparse : parseEntry line with
      | error e =>
        rw [hparse] at hok
        cases hok
      | ok e =>
        rw [hparse] at hok
        dsimp only at hok
        have hentry := parseEntry_ok_iff.mp hparse
        obtain ⟨-, -, -, -, -, -, -, hval⟩ := hentry
        by_cases hnew : (pairs.lookup e.1).getD [] = []
        · rw [if_neg (not_not.mpr hnew)] at hok
          obtain ⟨entries, hgrammar, hfresh, rfl⟩ := (ih (h.insert hval)).mp hok
          -- a key of a later line differs from the key of this one
          have hne (e' : Entry) (he' : e' ∈ entries) : e'.1 ≠ e.1 := by
            intro hkey
            have := hfresh e' he'
            rw [hkey, AList.lookup_insert] at this
            cases this
          refine ⟨e :: entries, ⟨.cons (parseEntry_ok_iff.mp hparse) hgrammar.entry, ?_⟩, ?_, rfl⟩
          · rw [List.map_cons, List.nodup_cons]
            refine ⟨fun hmem => ?_, hgrammar.distinct⟩
            obtain ⟨e', he', hkey⟩ := List.mem_map.mp hmem
            exact hne e' he' hkey
          · intro e' he'
            rcases List.mem_cons.mp he' with rfl | he'
            · exact (h.lookup_eq_none_iff _).mp hnew
            · have := hfresh e' he'
              rwa [AList.lookup_insert_ne (hne e' he')] at this
        · rw [if_pos hnew] at hok
          cases hok
    · rintro ⟨entries, ⟨hentries, hdistinct⟩, hfresh, rfl⟩
      cases hentries with
      | cons hentry hrest =>
        rename_i e entries
        have hnew := hfresh e List.mem_cons_self
        rw [List.map_cons, List.nodup_cons] at hdistinct
        obtain ⟨hkey, hdistinct⟩ := hdistinct
        rw [parseEntry_ok_iff.mpr hentry]
        dsimp only
        rw [if_neg (not_not.mpr ((h.lookup_eq_none_iff _).mpr hnew))]
        obtain ⟨-, -, -, -, -, -, -, hval⟩ := hentry
        refine (ih (h.insert hval)).mpr ⟨entries, ⟨hrest, hdistinct⟩, fun e' he' => ?_, rfl⟩
        rw [AList.lookup_insert_ne, hfresh e' (List.mem_cons_of_mem _ he')]
        intro heq
        exact hkey (List.mem_map.mpr ⟨e', he', heq⟩)

end Loop

/-! ## The file -/

/-- The lines of a file. -/
def fileLines (content : Bytes) : List Text := lines '\n' (bytesText content)

/-- The loader succeeds exactly on the files of the grammar, with the pairs of the file. -/
def LoadsAsWritten (content : Bytes) : Prop :=
  match loadKeyValueFile (some content) with
  | .ok pairs => ∃ entries, Grammar (fileLines content) entries ∧
      ∀ k v, pairs.lookup k = some v ↔ ⟨k, v⟩ ∈ entries
  | .error _ => ¬ ∃ entries, Grammar (fileLines content) entries

/-- In front of the first line that does not fit the scanner's buffer, there is one that is no entry
or repeats a key. -/
def LongLinesUnreached (content : Bytes) : Prop :=
  ∀ before line after, fileLines content = before ++ line :: after →
    (∀ l ∈ before, l.length < maxScanTokenSize) → maxScanTokenSize ≤ line.length →
    ¬ ∃ entries, Grammar before entries

section File

variable {content : Bytes} {pairs : Pairs}

theorem noneEmpty_empty : NoneEmpty ∅ := by
  intro k v hk
  cases hk

/-- What is loaded, by the lines that the scanner gives. -/
theorem loadKeyValueFile_ok_iff :
    loadKeyValueFile (some content) = .ok pairs ↔
      ∃ entries, Grammar (scanLines '\n' maxScanTokenSize (bytesText content)) entries ∧
        pairs = putAll ∅ entries := by
  unfold loadKeyValueFile
  dsimp only
  rw [loadLines_dropCR, loadLines_ok_iff noneEmpty_empty]
  constructor
  · rintro ⟨entries, hgrammar, -, hpairs⟩
    exact ⟨entries, hgrammar, hpairs⟩
  · rintro ⟨entries, hgrammar, hpairs⟩
    exact ⟨entries, hgrammar, fun e _ => rfl, hpairs⟩

theorem lookup_loaded {entries : List Entry} {lines : List Text} (h : Grammar lines entries)
    (k v : Text) : (putAll ∅ entries : Pairs).lookup k = some v ↔ ⟨k, v⟩ ∈ entries :=
  lookup_putAll_iff rfl h.distinct

theorem Grammar.left {before after : List Text} {entries : List Entry}
    (h : Grammar (before ++ after) entries) : ∃ entries', Grammar before entries' := by
  refine ⟨entries.take before.length, ?_, ?_⟩
  · have htake := List.forall₂_take before.length h.entry
    rwa [List.take_left] at htake
  · exact h.distinct.sublist ((List.take_sublist _ _).map _)

/-- There is one entry for each line. -/
theorem Grammar.length_eq {lines : List Text} {entries : List Entry} (h : Grammar lines entries) :
    lines.length = entries.length := h.entry.length_eq

theorem Grammar.nodup {lines : List Text} {entries : List Entry} (h : Grammar lines entries) :
    entries.Nodup := h.distinct.of_map

/-- The files of the grammar are loaded if every line fits. -/
theorem loadsAsWritten_of_short (h : ∀ l ∈ fileLines content, l.length < maxScanTokenSize) :
    LoadsAsWritten content := by
  have hscan := scanLines_of_short h
  unfold LoadsAsWritten
  cases hload : loadKeyValueFile (some content) with
  | ok pairs =>
    obtain ⟨entries, hgrammar, rfl⟩ := loadKeyValueFile_ok_iff.mp hload
    rw [hscan] at hgrammar
    exact ⟨entries, hgrammar, lookup_loaded hgrammar⟩
  | error e =>
    rintro ⟨entries, hgrammar⟩
    have hgrammar' : Grammar (fileLines content) entries := hgrammar
    unfold fileLines at hgrammar'
    rw [← hscan] at hgrammar'
    rw [loadKeyValueFile_ok_iff.mpr ⟨entries, hgrammar', rfl⟩] at hload
    cases hload

section Long

variable {before after : List Text} {line : Text} {entries : List Entry}
  (hlines : fileLines content = before ++ line :: after)
  (hshort : ∀ l ∈ before, l.length < maxScanTokenSize) (hlong : maxScanTokenSize ≤ line.length)

include hlines hshort hlong

/-- The loop ends at a line that does not fit, with the pairs so far. -/
theorem loadKeyValueFile_of_long (h : Grammar before entries) :
    loadKeyValueFile (some content) = .ok (putAll ∅ entries) := by
  rw [loadKeyValueFile_ok_iff, scanLines_of_long hlines hshort hlong]
  exact ⟨entries, h, rfl⟩

/-- The map then misses the entry of the long line at least. -/
theorem not_loadsAsWritten_of_long (h : Grammar before entries) : ¬ LoadsAsWritten content := by
  unfold LoadsAsWritten
  rw [loadKeyValueFile_of_long hlines hshort hlong h]
  rintro ⟨entries', hgrammar, hlookup⟩
  have hsame : ∀ e, e ∈ entries ↔ e ∈ entries' := by
    rintro ⟨k, v⟩
    rw [← lookup_loaded h, hlookup]
  have hperm := (List.perm_ext_iff_of_nodup h.nodup hgrammar.nodup).mpr hsame
  have hlength := hperm.length_eq
  rw [← h.length_eq, ← hgrammar.length_eq, hlines, List.length_append, List.length_cons] at hlength
  omega

/-- An error in front of it comes first. -/
theorem loadsAsWritten_of_error (h : ¬ ∃ entries, Grammar before entries) :
    LoadsAsWritten content := by
  unfold LoadsAsWritten
  cases hload : loadKeyValueFile (some content) with
  | ok pairs =>
    obtain ⟨entries, hgrammar, -⟩ := loadKeyValueFile_ok_iff.mp hload
    rw [scanLines_of_long hlines hshort hlong] at hgrammar
    exact absurd ⟨entries, hgrammar⟩ h
  | error e =>
    rintro ⟨entries, hgrammar⟩
    rw [hlines] at hgrammar
    exact h hgrammar.left

end Long

/-- A file is loaded as it is written, or refused, unless the scanner stops in it unnoticed. -/
theorem loads_iff (content : Bytes) : LoadsAsWritten content ↔ LongLinesUnreached content := by
  constructor
  · rintro h before line after hlines hshort hlong ⟨entries, hgrammar⟩
    exact not_loadsAsWritten_of_long hlines hshort hlong hgrammar h
  · intro h
    rcases short_or_long maxScanTokenSize (fileLines content) with
      hshort | ⟨before, line, after, hlines, hshort, hlong⟩
    · exact loadsAsWritten_of_short hshort
    · exact loadsAsWritten_of_error hlines hshort hlong (h before line after hlines hshort hlong)

end File

/-! ## A file with a long line -/

/-- `a=b`, and a value of 65536 bytes for the key `c`. -/
def longValue : Bytes := [97, 61, 98, 10, 99, 61] ++ List.replicate 65536 100

theorem fileLines_longValue :
    fileLines longValue =
      ["a=b".toList, "c=".toList ++ List.replicate 65536 'd'] := by
  have htext : bytesText longValue =
      "a=b".toList ++ '\n' :: ("c=".toList ++ List.replicate 65536 'd') := by
    unfold bytesText longValue
    rw [List.map_append, List.map_replicate]
    rfl
  have hfirst : '\n' ∉ "a=b".toList := by decide
  have hsecond : '\n' ∉ "c=".toList ++ List.replicate 65536 'd' := by
    rw [List.mem_append, List.mem_replicate]
    rintro (h | ⟨-, h⟩)
    · exact absurd h (by decide)
    · exact absurd h (by decide)
  unfold fileLines
  rw [htext, lines_append_cons hfirst, lines_of_not_mem hsecond (List.cons_ne_nil _ _)]

/-- The loader returns the first line alone, without an error. -/
theorem long_value_missing :
    (∃ pairs, loadKeyValueFile (some longValue) = .ok pairs ∧
      pairs.lookup "a".toList = some "b".toList ∧ pairs.lookup "c".toList = none) ∧
      ¬ LoadsAsWritten longValue := by
  have hshort : ∀ l ∈ ["a=b".toList], l.length < maxScanTokenSize := by decide
  have hlong : maxScanTokenSize ≤ ("c=".toList ++ List.replicate 65536 'd').length := by
    rw [List.length_append, List.length_replicate]
    decide
  have hgrammar : Grammar ["a=b".toList] [⟨"a".toList, "b".toList⟩] :=
    ⟨.cons (parseEntry_ok_iff.mp rfl) .nil, by decide⟩
  refine ⟨⟨_, loadKeyValueFile_of_long fileLines_longValue hshort hlong hgrammar, by decide,
    by decide⟩, not_loadsAsWritten_of_long fileLines_longValue hshort hlong hgrammar⟩

end Rdfm.Linux
