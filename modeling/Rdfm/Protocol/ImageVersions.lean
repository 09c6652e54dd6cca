import Rdfm.Artifact.GroupArtifact
import Rdfm.Mcumgr.Session

/-!
# Versions of images

The version of an MCUboot image is written by the artifact tool in two places, and reported by the
device in a form of its own, which `ReadDeviceImages` changes to that of the tool. All three give
one string for one header, and different strings for different headers (`one_version_string`).
-/

namespace Rdfm.Protocol

open Rdfm.Lib Rdfm.Artifact Rdfm.Mcumgr

/-! ## Headers -/

/-- The version in the header of an MCUboot image. -/
structure HeaderVersion where
  major : UInt8
  minor : UInt8
  revision : UInt16
  buildNum : UInt32
deriving DecidableEq, Repr

/-- A number in the bytes of a header, the least significant first. -/
def leBytes : Nat → Nat → Bytes
  | 0, _ => []
  | size + 1, n => UInt8.ofNat n :: leBytes size (n / 256)

namespace HeaderVersion

def bytes (v : HeaderVersion) : Bytes :=
  leBytes 1 v.major.toNat ++ (leBytes 1 v.minor.toNat ++
    (leBytes 2 v.revision.toNat ++ leBytes 4 v.buildNum.toNat))

def toImageVersion (v : HeaderVersion) : ImageVersion :=
  ⟨v.major.toNat, v.minor.toNat, v.revision.toNat, v.buildNum.toNat⟩

/-- The image has this version at offset 20 of its header. -/
def InImage (v : HeaderVersion) (image : Bytes) : Prop :=
  ∃ before rest, before.length = 20 ∧ image = before ++ (v.bytes ++ rest)

/-- What a device that runs the image reports. -/
def reported (v : HeaderVersion) : Text :=
  let version := itoa v.major.toNat ++ '.' :: (itoa v.minor.toNat ++ '.' :: itoa v.revision.toNat)
  if v.buildNum = 0 then version else version ++ '.' :: itoa v.buildNum.toNat

end HeaderVersion

/-! ## The three strings -/

/-- The string that `imgVersion` returns. -/
def imgVersionText (image : FileHandle) : Except WriteError Text :=
  (fun version => version.1.text) <$> imgVersion image

/-- `strings.LastIndex` of a character that is in the text. -/
def lastIndex (t : Text) (c : Char) : Nat := t.length - 1 - t.reverse.idxOf c

/-- Maj.Min.Patch.Rev -> Maj.Min.Patch+Rev -/
def changeVersion (version : Text) : Text :=
  if version.count '.' = 3 then
    let ci := lastIndex version '.'
    version.take ci ++ '+' :: version.drop (ci + 1)
  else version

/-- The loop of `ReadDeviceImages` over the images that the device reports. -/
def changeVersions (images : List ImageStateEntry) : List ImageStateEntry :=
  images.map fun image => { image with version := changeVersion image.version }

/-! ## Reading the header -/

theorem length_leBytes (size n : Nat) : (leBytes size n).length = size := by
  induction size generalizing n with
  | zero => rfl
  | succ size ih => rw [leBytes, List.length_cons, ih]

theorem littleEndian_leBytes (size n : Nat) :
    FileHandle.littleEndian (leBytes size n) = n % 256 ^ size := by
  induction size generalizing n with
  | zero => rw [Nat.pow_zero, Nat.mod_one]; rfl
  | succ size ih =>
    have hcons : FileHandle.littleEndian (leBytes (size + 1) n) =
        n % 256 + 256 * FileHandle.littleEndian (leBytes size (n / 256)) := by
      change (UInt8.ofNat n).toNat + _ = _
      rw [UInt8.toNat_ofNat']
      rfl
    rw [hcons, ih, Nat.pow_succ, Nat.mul_comm (256 ^ size), Nat.mod_mul]

/-- A number is read again from where it stands. -/
theorem slice_leBytes (before rest : Bytes) (size : Nat) {offset n : Nat}
    (h : before.length = offset) (hn : n < 2 ^ (8 * size)) :
    FileHandle.littleEndian (slice (before ++ (leBytes size n ++ rest)) offset size) = n := by
  unfold slice
  have htake : (leBytes size n ++ rest).take size = leBytes size n := by
    rw [List.take_append_of_le_length (Nat.le_of_eq (length_leBytes size n).symm),
      List.take_of_length_le (Nat.le_of_eq (length_leBytes size n))]
  rw [Nat.pow_mul] at hn
  rw [← h, List.drop_left, htake, littleEndian_leBytes, Nat.mod_eq_of_lt hn]

theorem HeaderVersion.InImage.imageVersion {v : HeaderVersion} {image : Bytes}
    (h : v.InImage image) : imageVersion image = some v.toImageVersion := by
  rcases h with ⟨before, rest, hlength, rfl⟩
  rcases v with ⟨major, minor, revision, buildNum⟩
  have hmajor := slice_leBytes before (leBytes 1 minor.toNat ++ (leBytes 2 revision.toNat ++
    (leBytes 4 buildNum.toNat ++ rest))) 1 hlength major.toNat_lt
  have hminor := slice_leBytes (before ++ leBytes 1 major.toNat) (leBytes 2 revision.toNat ++
    (leBytes 4 buildNum.toNat ++ rest)) 1 rfl minor.toNat_lt
  have hrevision := slice_leBytes (before ++ (leBytes 1 major.toNat ++ leBytes 1 minor.toNat))
    (leBytes 4 buildNum.toNat ++ rest) 2 rfl revision.toNat_lt
  have hbuild := slice_leBytes (before ++ (leBytes 1 major.toNat ++ (leBytes 1 minor.toNat ++
    leBytes 2 revision.toNat))) rest 4 rfl buildNum.toNat_lt
  simp only [List.append_assoc, List.length_append, length_leBytes, hlength, Nat.reduceAdd]
    at hmajor hminor hrevision hbuild
  simp only [Artifact.imageVersion, bytes, toImageVersion, List.append_assoc, hmajor, hminor,
    hrevision, hbuild, List.length_append, length_leBytes, hlength]
  rw [if_pos (by omega)]

/-! ## One string -/

section Texts

variable {v w : HeaderVersion} {image image' : Bytes}

/-- `imgVersion` reads the header wherever the handle stands. -/
theorem imgVersionText_eq (h : v.InImage image) (pos : Nat) :
    imgVersionText ⟨image, pos⟩ = .ok v.toImageVersion.text := by
  unfold imgVersionText
  rw [imgVersion_ok_iff.mpr ⟨h.imageVersion, rfl⟩]
  rfl

theorem getImageVersion_eq (h : v.InImage image) {files : Files} {path : Text}
    (hfile : files path = some image) :
    getImageVersion files path = .ok v.toImageVersion.text := by
  unfold getImageVersion
  rw [hfile]
  dsimp only
  rw [imgVersion_ok_iff.mpr ⟨h.imageVersion, rfl⟩]
  rfl

theorem lastIndex_append {a b : Text} {c : Char} (hb : c ∉ b) :
    lastIndex (a ++ c :: b) c = a.length := by
  unfold lastIndex
  have hreverse : (a ++ c :: b).reverse.idxOf c = b.length := by
    rw [List.reverse_append, List.reverse_cons, List.append_assoc, List.singleton_append,
      List.idxOf_append_of_notMem (by simpa using hb), List.length_reverse, List.idxOf_cons_self]
    rfl
  rw [hreverse, List.length_append, List.length_cons]
  omega

theorem count_itoa (n : Nat) : (itoa n).count '.' = 0 :=
  List.count_eq_zero.mpr (not_mem_itoa rfl)

/-- The third dot becomes a plus. -/
theorem changeVersion_append {a b : Text} (ha : a.count '.' = 2) (hb : '.' ∉ b) :
    changeVersion (a ++ '.' :: b) = a ++ '+' :: b := by
  have hcount : (a ++ '.' :: b).count '.' = 3 := by
    rw [List.count_append, ha, List.count_cons_self, List.count_eq_zero.mpr hb]
  have hdrop : (a ++ '.' :: b).drop (a.length + 1) = b := by
    rw [List.append_cons]
    exact List.drop_left' (by simp)
  unfold changeVersion
  rw [if_pos hcount, lastIndex_append hb]
  dsimp only
  rw [List.take_left, hdrop]

/-- The client changes what the device reports to the string of the tool. -/
theorem changeVersion_reported (v : HeaderVersion) :
    changeVersion v.reported = v.toImageVersion.text := by
  have hzero : v.toImageVersion.buildNum = 0 ↔ v.buildNum = 0 := by
    rw [← UInt32.toNat_inj]
    rfl
  have hdots : (itoa v.major.toNat ++ '.' :: (itoa v.minor.toNat ++ '.' ::
      itoa v.revision.toNat)).count '.' = 2 := by
    simp [List.count_append, count_itoa]
  unfold HeaderVersion.reported ImageVersion.text
  by_cases hbuild : v.buildNum = 0
  · rw [if_pos hbuild, if_pos (hzero.mpr hbuild), changeVersion, if_neg]
    · rfl
    · rw [hdots]
      decide
  · rw [if_neg hbuild, if_neg (mt hzero.mp hbuild)]
    exact changeVersion_append hdots (not_mem_itoa rfl)

theorem toImageVersion_injective : Function.Injective HeaderVersion.toImageVersion := by
  rintro ⟨major, minor, revision, buildNum⟩ ⟨major', minor', revision', buildNum'⟩ heq
  simp only [HeaderVersion.toImageVersion, ImageVersion.mk.injEq, UInt8.toNat_inj,
    UInt16.toNat_inj, UInt32.toNat_inj] at heq
  rcases heq with ⟨rfl, rfl, rfl, rfl⟩
  rfl

/-- **The tool gives an image one version string, in both places; the client has the same string of
a device that runs the image; and an image with this string has the same version.** -/
theorem one_version_string (hv : v.InImage image) (hw : w.InImage image') {files : Files}
    {path : Text} (hfile : files path = some image) {images : List ImageStateEntry} {i : Nat}
    {entry : ImageStateEntry} (hentry : images[i]? = some entry)
    (hreported : entry.version = v.reported) :
    ∃ version, (∀ pos, imgVersionText ⟨image, pos⟩ = .ok version) ∧
      getImageVersion files path = .ok version ∧
      (changeVersions images)[i]?.map ImageStateEntry.version = some version ∧
      ∀ pos, imgVersionText ⟨image', pos⟩ = .ok version → v = w := by
  refine ⟨v.toImageVersion.text, imgVersionText_eq hv, getImageVersion_eq hv hfile, ?_, ?_⟩
  · unfold changeVersions
    rw [List.getElem?_map, hentry, Option.map_some, Option.map_some, hreported,
      changeVersion_reported]
  · intro pos htext
    rw [imgVersionText_eq hw, Except.ok.injEq] at htext
    exact (toImageVersion_injective (ImageVersion.text_injective htext)).symm

end Texts

/-- An image with the version 1.2.3+4, and one with 1.2.3. -/
def builtImage (buildNum : UInt32) : Bytes :=
  List.replicate 20 0 ++ (HeaderVersion.bytes ⟨1, 2, 3, buildNum⟩ ++ [])

theorem one_version_string_built :
    ∃ version, (∀ pos, imgVersionText ⟨builtImage 4, pos⟩ = .ok version) ∧
      getImageVersion (fun _ => some (builtImage 4)) "app.bin".toList = .ok version ∧
      (changeVersions [⟨[], "1.2.3.4".toList, true⟩])[0]?.map ImageStateEntry.version =
        some version ∧
      ∀ pos, imgVersionText ⟨builtImage 0, pos⟩ = .ok version →
        (⟨1, 2, 3, 4⟩ : HeaderVersion) = ⟨1, 2, 3, 0⟩ :=
  one_version_string ⟨_, _, rfl, rfl⟩ ⟨_, _, rfl, rfl⟩ rfl rfl (by decide)

end Rdfm.Protocol
