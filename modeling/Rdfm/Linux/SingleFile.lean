import Rdfm.Lib.Decimal
import Rdfm.Lib.FileSys
import Rdfm.Lib.Trim
import Rdfm.Lib.Utf8

/-!
# The single-file payload handler

`SingleFileUpdater` of the Linux client: it collects its settings from the small files of a payload,
backs the destination file up and overwrites it, and later removes the backup or copies it back.
-/

namespace Rdfm.Linux

open Rdfm.Lib

/-- A data file of a payload. -/
structure DataFile where
  name : Text
  data : Bytes
deriving DecidableEq, Repr

structure SingleFileData where
  destDirectory : Text
  filename : Text
  permissions : Nat
  rollbackFileName : Text
  rollbackSupport : Bool
deriving DecidableEq, Repr

/-- `NewSingleFileUpdater`. -/
def newSingleFileUpdater : SingleFileData := ⟨[], [], 0, [], false⟩

namespace SingleFileData

/-- The path of the destination file. -/
def destPath (s : SingleFileData) : Text := joinPath s.destDirectory s.filename

/-- The path a backup gets. -/
def backupPath (s : SingleFileData) : Text := joinPath s.destDirectory (s.filename ++ ".tmp".toList)

/-- The characters of bytes; a Go string is one of bytes. -/
def bytesText (data : Bytes) : Text := data.map fun b => Char.ofNat b.toNat

/-- The white space of Unicode, each character by its bytes in UTF-8. -/
def spaces : List Text :=
  ([[9], [10], [11], [12], [13], [32], [0xC2, 0x85], [0xC2, 0xA0], [0xE1, 0x9A, 0x80],
    [0xE2, 0x80, 0x80], [0xE2, 0x80, 0x81], [0xE2, 0x80, 0x82], [0xE2, 0x80, 0x83],
    [0xE2, 0x80, 0x84], [0xE2, 0x80, 0x85], [0xE2, 0x80, 0x86], [0xE2, 0x80, 0x87],
    [0xE2, 0x80, 0x88], [0xE2, 0x80, 0x89], [0xE2, 0x80, 0x8A], [0xE2, 0x80, 0xA8],
    [0xE2, 0x80, 0xA9], [0xE2, 0x80, 0xAF], [0xE2, 0x81, 0x9F], [0xE3, 0x80, 0x80]] :
    List Bytes).map bytesText

/-- `strings.TrimSpace`. -/
def trimSpace (text : Text) : Text := trim spaces text

theorem zero_in_no_space : ∀ word ∈ spaces, '\x00' ∉ word := by decide

/-- A zero byte is never trimmed. -/
theorem zero_mem_trimSpace {text : Text} (h : '\x00' ∈ text) : '\x00' ∈ trimSpace text :=
  mem_trim zero_in_no_space h

/-- `readPayloadFile`, when one `Read` fills its buffer: the text without the white space around
it. -/
def readPayloadFile (data : Bytes) : Text := trimSpace (bytesText data)

/-- The permissions of a payload; a text that is no number, or too large a one, is not refused. -/
def parsePermissions (text : Text) : Nat :=
  match parseSigned 8 text with
  | none => 0
  | some n => (max (-2 ^ 31) (min n (2 ^ 31 - 1)) % 2 ^ 32).toNat

/-- What `RestoreState` reads of a record that `SaveState` wrote: `encoding/json` replaces the bytes of
a string that are not UTF-8. -/
def recorded (s : SingleFileData) : SingleFileData where
  destDirectory := toValidUtf8 s.destDirectory
  filename := toValidUtf8 s.filename
  permissions := s.permissions
  rollbackFileName := toValidUtf8 s.rollbackFileName
  rollbackSupport := s.rollbackSupport

/-- The strings of the record are valid. -/
structure Recordable (s : SingleFileData) : Prop where
  destDirectory : ValidUtf8 s.destDirectory
  filename : ValidUtf8 s.filename
  rollbackFileName : ValidUtf8 s.rollbackFileName

theorem Recordable.recorded_eq {s : SingleFileData} (h : s.Recordable) : s.recorded = s := by
  unfold recorded
  rw [(toValidUtf8_eq_iff _).mpr h.destDirectory, (toValidUtf8_eq_iff _).mpr h.filename,
    (toValidUtf8_eq_iff _).mpr h.rollbackFileName]

/-- `updateFile`: what it leaves of the handler and the files. Its error is dropped by its caller. -/
def updateFile (s : SingleFileData) (data : Bytes) (fs : FileSys) : SingleFileData × FileSys :=
  if s.destDirectory = [] then (s, fs)
  else
    let fs := if fs.dirs s.destDirectory then fs else fs.mkdirAll s.destDirectory
    if s.rollbackSupport then
      let s := { s with rollbackFileName := s.backupPath }
      -- the backup is truncated before the destination is opened
      let fs := fs.write s.backupPath s.permissions []
      let fs :=
        match fs.read s.destPath with
        | some orig => fs.write s.backupPath s.permissions orig.content
        | none => fs
      (s, fs.write s.destPath s.permissions data)
    else
      (s, fs.write s.destPath s.permissions data)

/-- `StoreUpdate`, one file of the payload. -/
def storeUpdate (s : SingleFileData) (f : DataFile) (fs : FileSys) : SingleFileData × FileSys :=
  if f.name = "dest_dir".toList then ({ s with destDirectory := readPayloadFile f.data }, fs)
  else if f.name = "filename".toList then ({ s with filename := readPayloadFile f.data }, fs)
  else if f.name = "permissions".toList then
    ({ s with permissions := parsePermissions (readPayloadFile f.data) }, fs)
  else if f.name = "rollback_support".toList then
    ({ s with rollbackSupport := decide (readPayloadFile f.data = "true".toList) }, fs)
  else if f.name = s.filename then s.updateFile f.data fs
  else (s, fs)

/-- `CommitUpdate` never reports an error, not even when the backup stays. -/
def commitUpdate (s : SingleFileData) (removeFails : Bool) (fs : FileSys) : FileSys :=
  if removeFails then fs else fs.remove s.rollbackFileName

/-- `Rollback`: whether the copy failed, and the files. The destination is truncated before the
backup is known to be readable. -/
def rollback (s : SingleFileData) (copyFails : Bool) (fs : FileSys) : Bool × FileSys :=
  match fs.read s.rollbackFileName with
  | none => (true, fs.write s.destPath s.permissions [])
  | some backup =>
    if copyFails then (true, fs.write s.destPath s.permissions [])
    else
      -- truncated first: the backup may be the destination itself
      let fs := fs.write s.destPath s.permissions []
      let content := ((fs.read s.rollbackFileName).map RegularFile.content).getD backup.content
      (false, (fs.write s.destPath s.permissions content).remove s.rollbackFileName)

end SingleFileData

end Rdfm.Linux
