import Mathlib.Algebra.GroupWithZero.Nat
import Mathlib.Data.List.Basic
import Mathlib.Tactic.Common

/-!
# Zip archives

A zip archive as its bytes with the entries of its central directory. Where the data of an entry
begins is said by its local header alone: 30 bytes, the name, and an extra field that need not be the
one of the directory (`ZipArchive.dataOffset`).

An archive has its records one after the other, each with whatever lies before it, and with what comes
after its data. The directory may have the entries in another order; it splits the archive at a member
if it has the entries of the records before the member before that of the member
(`ZipArchive.Splits`). Names are in UTF-8, which takes at least the units of UTF-16, and as many
for ASCII only (`utf16Length_eq_iff`).
-/

namespace Rdfm.Lib

/-! ## The format -/

/-- A number of two bytes. -/
def le16 (n : Nat) : List UInt8 := [UInt8.ofNat n, UInt8.ofNat (n / 256)]

def readLe16 (bytes : List UInt8) (pos : Nat) : Nat :=
  (bytes[pos]?.getD 0).toNat + 256 * (bytes[pos + 1]?.getD 0).toNat

/-- An entry of the central directory. -/
structure ZipEntry where
  name : List Char
  extra : Option (List UInt8)
  compressedSize : Nat
  /-- Where its local header begins. -/
  localOffset : Nat

structure ZipArchive where
  bytes : List UInt8
  entries : List ZipEntry

namespace ZipArchive

variable (a : ZipArchive) (e : ZipEntry)

/-- Where the data of an entry begins, as its local header says. -/
def dataOffset : Nat :=
  e.localOffset + 30 + readLe16 a.bytes (e.localOffset + 26) + readLe16 a.bytes (e.localOffset + 28)

def data : List UInt8 := (a.bytes.drop (a.dataOffset e)).take e.compressedSize

end ZipArchive

def utf8 (text : List Char) : List UInt8 := text.flatMap String.utf8EncodeChar

/-- A file in an archive. -/
structure ZipMember where
  /-- What lies before the local header. -/
  gap : List UInt8
  /-- The local header up to the two lengths. -/
  fields : List UInt8
  fields_length : fields.length = 26
  name : List Char
  name_lt : (utf8 name).length < 65536
  localExtra : List UInt8
  localExtra_lt : localExtra.length < 65536
  data : List UInt8
  /-- The data descriptor, and whatever else comes after the data. -/
  descriptor : List UInt8
  /-- The extra field in the central directory. -/
  extra : Option (List UInt8)

namespace ZipMember

variable (m : ZipMember)

def localHeader : List UInt8 :=
  m.fields ++ le16 (utf8 m.name).length ++ le16 m.localExtra.length ++ utf8 m.name ++ m.localExtra

def record : List UInt8 := m.gap ++ m.localHeader ++ m.data ++ m.descriptor

theorem localHeader_length :
    m.localHeader.length = 30 + (utf8 m.name).length + m.localExtra.length := by
  simp only [localHeader, le16, List.length_append, m.fields_length, List.length_cons,
    List.length_nil]

/-- The entry of a member whose record begins here. -/
def entry (pos : Nat) : ZipEntry := ⟨m.name, m.extra, m.data.length, pos + m.gap.length⟩

end ZipMember

/-- The entries of records that lie one after the other. -/
def entriesFrom : Nat → List ZipMember → List ZipEntry
  | _, [] => []
  | pos, m :: ms => m.entry pos :: entriesFrom (pos + m.record.length) ms

def records (ms : List ZipMember) : List UInt8 := ms.flatMap ZipMember.record

/-- The archive has these records, and in its directory the same entries are before and after the one
of `m`, in any order. -/
structure ZipArchive.Splits (a : ZipArchive) (before : List ZipMember) (m : ZipMember)
    (after : List ZipMember) : Prop where
  bytes : ∃ directory, a.bytes = records (before ++ m :: after) ++ directory
  entries : ∃ es es', a.entries = es ++ m.entry (records before).length :: es' ∧
    es.Perm (entriesFrom 0 before) ∧
    es'.Perm (entriesFrom ((records before).length + m.record.length) after)

/-! ## Reading an archive -/

section Layout

variable {a : ZipArchive} {before after : List ZipMember} {m : ZipMember}

theorem readLe16_append {n : Nat} (hn : n < 65536) (before after : List UInt8) :
    readLe16 (before ++ le16 n ++ after) before.length = n := by
  have h0 : (before ++ le16 n ++ after)[before.length]? = some (UInt8.ofNat n) := by
    simp [le16]
  have h1 : (before ++ le16 n ++ after)[before.length + 1]? = some (UInt8.ofNat (n / 256)) := by
    simp [le16]
  rw [readLe16, h0, h1]
  simp only [Option.getD_some, UInt8.toNat_ofNat']
  omega

/-- The data of a member is where the local header says. -/
theorem ZipArchive.Splits.dataOffset (h : a.Splits before m after) :
    a.dataOffset (m.entry (records before).length) =
      (records before).length + m.gap.length + m.localHeader.length := by
  obtain ⟨directory, hbytes⟩ := h.bytes
  have hbytes : a.bytes = (records before ++ m.gap) ++ m.localHeader ++
      (m.data ++ m.descriptor ++ (records after ++ directory)) := by
    simp [hbytes, records, ZipMember.record]
  have hstart : (m.entry (records before).length).localOffset = (records before ++ m.gap).length := by
    simp [ZipMember.entry]
  unfold ZipArchive.dataOffset
  rw [hbytes, hstart]
  have hname : readLe16 ((records before ++ m.gap) ++ m.localHeader ++
      (m.data ++ m.descriptor ++ (records after ++ directory)))
      ((records before ++ m.gap).length + 26) = (utf8 m.name).length := by
    have h := readLe16_append m.name_lt (records before ++ m.gap ++ m.fields)
      (le16 m.localExtra.length ++ utf8 m.name ++ m.localExtra ++
        (m.data ++ m.descriptor ++ (records after ++ directory)))
    rw [List.length_append, m.fields_length] at h
    simpa [ZipMember.localHeader] using h
  have hextra : readLe16 ((records before ++ m.gap) ++ m.localHeader ++
      (m.data ++ m.descriptor ++ (records after ++ directory)))
      ((records before ++ m.gap).length + 28) = m.localExtra.length := by
    have h := readLe16_append m.localExtra_lt
      (records before ++ m.gap ++ m.fields ++ le16 (utf8 m.name).length)
      (utf8 m.name ++ m.localExtra ++ (m.data ++ m.descriptor ++ (records after ++ directory)))
    have hlength : (records before ++ m.gap ++ m.fields ++ le16 (utf8 m.name).length).length =
        (records before ++ m.gap).length + 28 := by
      simp only [le16, List.length_append, m.fields_length, List.length_cons, List.length_nil]
    rw [hlength] at h
    simpa [ZipMember.localHeader] using h
  rw [hname, hextra, m.localHeader_length, List.length_append]
  omega

theorem ZipArchive.Splits.data (h : a.Splits before m after) :
    a.data (m.entry (records before).length) = m.data := by
  obtain ⟨directory, hbytes⟩ := h.bytes
  have hbytes : a.bytes = (records before ++ m.gap ++ m.localHeader) ++
      (m.data ++ (m.descriptor ++ (records after ++ directory))) := by
    simp [hbytes, records, ZipMember.record]
  have hstart : (records before).length + m.gap.length + m.localHeader.length =
      (records before ++ m.gap ++ m.localHeader).length := by
    simp [Nat.add_assoc]
  unfold ZipArchive.data
  rw [h.dataOffset, hbytes, hstart, List.drop_left]
  exact List.take_left

end Layout

/-! ## The length of a name -/

def utf16Size (c : Char) : Nat := if c.val ≤ 0xFFFF then 1 else 2

/-- The length of a text as a string of UTF-16 units. -/
def utf16Length (text : List Char) : Nat := (text.map utf16Size).sum

def Ascii (text : List Char) : Prop := ∀ c ∈ text, c.val ≤ 127

instance (text : List Char) : Decidable (Ascii text) :=
  List.decidableBAll (fun c : Char => c.val ≤ 127) text

theorem utf16Size_le (c : Char) : utf16Size c ≤ c.utf8Size := by
  have hpos := c.utf8Size_pos
  unfold utf16Size
  split
  · exact hpos
  · next hlarge =>
    have hne : c.utf8Size ≠ 1 := fun h => by
      rw [Char.utf8Size_eq_one_iff] at h
      exact hlarge (UInt32.le_trans h (by decide))
    omega

theorem utf16Size_eq_iff (c : Char) : utf16Size c = c.utf8Size ↔ c.val ≤ 127 := by
  unfold utf16Size
  rw [eq_comm]
  split
  · exact Char.utf8Size_eq_one_iff
  · next hlarge =>
    rw [Char.utf8Size_eq_two_iff]
    refine iff_of_false (fun h => hlarge (UInt32.le_trans h.2 (by decide))) (fun h => ?_)
    exact hlarge (UInt32.le_trans h (by decide))

theorem utf16Length_le (text : List Char) : utf16Length text ≤ (utf8 text).length := by
  induction text with
  | nil => exact Nat.le_refl 0
  | cons c text ih =>
    have hc := utf16Size_le c
    simp only [utf16Length, utf8, List.map_cons, List.sum_cons, List.flatMap_cons,
      List.length_append, String.length_utf8EncodeChar] at ih ⊢
    omega

theorem utf16Length_eq_iff (text : List Char) :
    utf16Length text = (utf8 text).length ↔ Ascii text := by
  induction text with
  | nil => exact iff_of_true rfl nofun
  | cons c text ih =>
    have hc := utf16Size_le c
    have hrest := utf16Length_le text
    rw [Ascii, List.forall_mem_cons, ← utf16Size_eq_iff]
    change _ ↔ _ ∧ Ascii text
    rw [← ih]
    simp only [utf16Length, utf8, List.map_cons, List.sum_cons, List.flatMap_cons,
      List.length_append, String.length_utf8EncodeChar] at hrest ⊢
    omega

end Rdfm.Lib
