import Rdfm.Lib.Decimal
import Rdfm.Linux.BlockDeviceWrite
import Mathlib.Data.List.Infix

/-!
# Delta updates, from the artifact tool to the inactive partition

`ArtifactDelta.Delta` puts the size of an image and the name of the delta algorithm into the name of
the delta file; the client's installer reads both back and patches the active partition onto the
inactive one through a block writer bounded by that size. The two delta libraries are a parameter.
-/

namespace Rdfm.Linux

open Rdfm.Lib BlockDeviceWriter

/-! ## The artifact tool -/

inductive DeltaEngine where
  | rsync
  | xdelta
deriving DecidableEq, Repr

def DeltaEngine.name : DeltaEngine → String
  | .rsync => "rsync"
  | .xdelta => "xdelta"

def parseDeltaEngine (algo : String) : Option DeltaEngine :=
  if algo = "rsync" then some .rsync
  else if algo = "xdelta" then some .xdelta
  else none

/-- A delta library: the delta of two images, the pieces `Patch` writes one after the other, and
whether it gives up when `Write` takes fewer bytes than it was given. -/
structure EngineLib where
  delta : (base target : Bytes) → Bytes
  patch : (base delta : Bytes) → List Bytes
  stopsOnShortWrite : Bool

/-- A delta file: its name and its bytes. -/
structure DeltaFile where
  name : String
  data : Bytes
deriving DecidableEq, Repr

/-- `ArtifactDelta.Delta`, with the name of its temporary file. -/
def artifactDelta (lib : DeltaEngine → EngineLib) (engine : DeltaEngine) (tmp : String)
    (base target : Bytes) : DeltaFile where
  name := tmp ++ "." ++ String.ofList (itoa base.length) ++ "." ++ engine.name
  data := (lib engine).delta base target

/-! ## The installer -/

inductive PatchError where
  | read
  | write (e : Errno)
  | shortWrite
deriving DecidableEq, Repr

inductive InstallError where
  /-- `Unable to infer original image size from delta file name`. -/
  | imageSize (name : String)
  /-- `invalid delta algorithm`. -/
  | algorithm (algo : String)
  | openActive
  | openInactive
  /-- `invalid update: negative size`. -/
  | negativeSize
  | patch (e : PatchError)
  | close (e : Errno)
  /-- Whatever the wrapped installer reports. -/
  | realDev
deriving DecidableEq, Repr

/-- Which I/O fails during an installation: opening a partition, reading the base or the delta
(before the given write), and the calls on the inactive partition. -/
structure InstallFaults where
  openActive : Bool
  openInactive : Bool
  read : Option Nat
  patch : Faults
  close : Faults

def noInstallFaults : InstallFaults := ⟨false, false, none, noFaults, noFaults⟩

/-- The partitions of a dual-rootfs device. -/
structure Partitions where
  sectorSize : Nat
  active : Bytes
  inactive : Bytes

/-- The writes of `Patch`. -/
def patchLoop (stopsOnShortWrite : Bool) (io : Faults) :
    Option Nat → List Bytes → BlockDeviceWriter → Option PatchError × BlockDeviceWriter
  | some 0, _, w => (some .read, w)
  | _, [], w => (none, w)
  | read, b :: bs, w =>
    match w.write io b with
    | ((_, some e), w) => (some (.write e), w)
    | ((n, none), w) =>
      if n < b.length ∧ stopsOnShortWrite = true then (some .shortWrite, w)
      else patchLoop stopsOnShortWrite io (read.map (· - 1)) bs w

/-- `Open`, on the inactive partition. -/
def openInactiveForWriting (io : InstallFaults) (p : Partitions) (imageSize : Int) :
    Except InstallError BlockDeviceWriter :=
  if imageSize < 0 then .error .negativeSize
  else if io.openInactive then .error .openInactive
  else .ok (initWriter p.inactive p.sectorSize imageSize.toNat)

def writeDeltaToInactive (lib : EngineLib) (io : InstallFaults) (p : Partitions) (delta : Bytes)
    (inferredImageSize : Int) : Option InstallError × Bytes :=
  if io.openActive then (some .openActive, p.inactive)
  else
    match openInactiveForWriting io p inferredImageSize with
    | .error e => (some e, p.inactive)
    | .ok w =>
      match patchLoop lib.stopsOnShortWrite io.patch io.read (lib.patch p.active delta) w with
      | (some e, w) => (some (.patch e), (w.close io.close).2.content)
      | (none, w) =>
        let (err, w) := w.close io.close
        (err.map .close, w.content)

/-- `strings.Split(name, ".")`. -/
def splitDots (name : String) : List String := (name.toList.splitOn '.').map String.ofList

def hasSuffix (name suffix : String) : Bool := suffix.toList.isSuffixOf name.toList

def storeUpdateDelta (lib : DeltaEngine → EngineLib) (io : InstallFaults) (p : Partitions)
    (f : DeltaFile) : Option InstallError × Bytes :=
  -- counted from the end, as the code indexes the parts
  match (splitDots f.name).reverse with
  | deltaAlgo :: size :: _ =>
    match parseInt 10 64 size.toList with
    | none => (some (.imageSize f.name), p.inactive)
    | some imageSize =>
      -- the legacy format defaults to rsync
      let deltaAlgo := if deltaAlgo = "delta" then "rsync" else deltaAlgo
      match parseDeltaEngine deltaAlgo with
      | none => (some (.algorithm deltaAlgo), p.inactive)
      | some engine => writeDeltaToInactive (lib engine) io p f.data imageSize
  | _ => (some (.imageSize f.name), p.inactive)

/-- `StoreUpdate`: files that are no deltas go to the wrapped installer. -/
def storeUpdate (lib : DeltaEngine → EngineLib)
    (realDev : DeltaFile → Bytes → Option InstallError × Bytes) (io : InstallFaults)
    (p : Partitions) (f : DeltaFile) : Option InstallError × Bytes :=
  if hasSuffix f.name ".delta" || hasSuffix f.name ".xdelta" || hasSuffix f.name ".rsync" then
    storeUpdateDelta lib io p f
  else
    realDev f p.inactive

/-! ## The file name -/

/-- The installer finds the engine and the size the tool put into the name. -/
theorem splitDots_artifactDelta (lib : DeltaEngine → EngineLib) (engine : DeltaEngine)
    (tmp : String) (base target : Bytes) :
    ∃ rest, (splitDots (artifactDelta lib engine tmp base target).name).reverse =
      engine.name :: String.ofList (itoa base.length) :: rest := by
  have hsize : '.' ∉ itoa base.length := not_mem_itoa rfl
  have hname : '.' ∉ engine.name.toList := by cases engine <;> decide
  refine ⟨((tmp.toList.splitOn '.').map String.ofList).reverse, ?_⟩
  have hlist : (artifactDelta lib engine tmp base target).name.toList =
      tmp.toList ++ '.' :: (itoa base.length ++ '.' :: engine.name.toList) := by
    simp [artifactDelta, String.toList_append, String.toList_ofList]
  unfold splitDots
  rw [hlist, List.splitOn_append_cons_self, List.splitOn_append_cons_self_of_not_mem hsize,
    List.splitOn_eq_singleton hname]
  simp

theorem hasSuffix_artifactDelta (lib : DeltaEngine → EngineLib) (engine : DeltaEngine)
    (tmp : String) (base target : Bytes) :
    hasSuffix (artifactDelta lib engine tmp base target).name ("." ++ engine.name) = true := by
  unfold hasSuffix artifactDelta
  rw [List.isSuffixOf_iff_suffix]
  refine ⟨(tmp ++ "." ++ String.ofList (itoa base.length)).toList, ?_⟩
  simp [String.toList_append]

theorem parseDeltaEngine_name (engine : DeltaEngine) :
    parseDeltaEngine engine.name = some engine := by
  cases engine <;> decide

/-- What the tool names, the installer patches with the same engine, up to the size of the base. -/
theorem storeUpdate_artifactDelta {lib : DeltaEngine → EngineLib}
    {realDev : DeltaFile → Bytes → Option InstallError × Bytes} {io : InstallFaults}
    {p : Partitions} {engine : DeltaEngine} {tmp : String} {base target : Bytes}
    (hsize : base.length < 2 ^ 63) :
    storeUpdate lib realDev io p (artifactDelta lib engine tmp base target) =
      writeDeltaToInactive (lib engine) io p ((lib engine).delta base target) base.length := by
  have hsuffix := hasSuffix_artifactDelta lib engine tmp base target
  have hdelta : (hasSuffix (artifactDelta lib engine tmp base target).name ".delta" ||
      hasSuffix (artifactDelta lib engine tmp base target).name ".xdelta" ||
      hasSuffix (artifactDelta lib engine tmp base target).name ".rsync") = true := by
    cases engine with
    | rsync =>
      have hname : ".rsync" = "." ++ DeltaEngine.rsync.name := rfl
      rw [hname, hsuffix, Bool.or_true]
    | xdelta =>
      have hname : ".xdelta" = "." ++ DeltaEngine.xdelta.name := rfl
      rw [hname, hsuffix, Bool.or_true, Bool.true_or]
  have hlegacy : engine.name ≠ "delta" := by cases engine <;> decide
  obtain ⟨rest, hsplit⟩ := splitDots_artifactDelta lib engine tmp base target
  have hparse : parseInt 10 64 (itoa base.length) = some (base.length : Int) := parseInt_itoa hsize
  unfold storeUpdate storeUpdateDelta
  rw [if_pos hdelta, hsplit]
  simp only [String.toList_ofList, hparse, if_neg hlegacy, parseDeltaEngine_name]
  rfl

/-! ## Patching -/

section Patch

variable {stops : Bool} {io : Faults} {read : Option Nat} {b : Bytes} {bs : List Bytes}
  {w w' : BlockDeviceWriter} {D d : Bytes}

theorem patchLoop_read_ne (hok : patchLoop stops io read bs w = (none, w')) : read ≠ some 0 := by
  intro hr
  subst hr
  simp [patchLoop] at hok

theorem patchLoop_cons (hr : read ≠ some 0) :
    patchLoop stops io read (b :: bs) w =
      match w.write io b with
      | ((_, some e), w) => (some (.write e), w)
      | ((n, none), w) =>
        if n < b.length ∧ stops = true then (some .shortWrite, w)
        else patchLoop stops io (read.map (· - 1)) bs w := by
  rw [patchLoop]
  exact hr

/-- The bytes of a longer stream that fit, piece by piece. -/
theorem take_flatten_cons (b : Bytes) (bs : List Bytes) (u : Nat) :
    (b :: bs).flatten.take u = b.take u ++ bs.flatten.take (u - min b.length u) := by
  rw [List.flatten_cons, List.take_append]
  congr 2
  omega

/-- A patch that ends well has written its stream up to the size of the update. -/
theorem patchLoop_ok (h : Holding D d w) (hok : patchLoop stops io read bs w = (none, w')) :
    Holding D (d ++ bs.flatten.take w.bytesToUpdate) w' ∧ w'.frameSize = w.frameSize ∧
      (stops = true → bs.flatten.length ≤ w.bytesToUpdate) := by
  induction bs generalizing read w d with
  | nil =>
    rw [patchLoop] at hok
    · simp only [Prod.mk.injEq, true_and] at hok
      subst hok
      exact ⟨by simpa using h, rfl, fun _ => Nat.zero_le _⟩
    · exact patchLoop_read_ne hok
  | cons b bs ih =>
    rw [patchLoop_cons (patchLoop_read_ne hok)] at hok
    rcases hw : w.write io b with ⟨⟨n, _ | e⟩, w₁⟩
    · rw [hw] at hok
      obtain ⟨hH, hn, hU, hF⟩ := write_ok h hw
      dsimp only at hok
      split at hok
      · simp at hok
      · next hfull =>
        obtain ⟨hH', hF', hlen⟩ := ih hH hok
        rw [hU, hn] at hH' hlen
        refine ⟨?_, hF'.trans hF, ?_⟩
        · rw [take_flatten_cons, ← List.append_assoc]
          exact hH'
        · intro hs
          have hle := hlen hs
          rw [List.flatten_cons, List.length_append]
          have : ¬ n < b.length := fun hlt => hfull ⟨hlt, hs⟩
          omega
    · rw [hw] at hok
      simp at hok

/-- The same from the start of the partition. -/
theorem patchLoop_initWriter_ok {sectorSize size : Nat} (hs : 1 ≤ sectorSize)
    (hok : patchLoop stops io read bs (initWriter D sectorSize size) = (none, w')) :
    Holding D (bs.flatten.take size) w' ∧ w'.frameSize = calculateFrameSize sectorSize ∧
      (stops = true → bs.flatten.length ≤ size) :=
  patchLoop_ok (holding_initWriter D hs size) hok

/-- Without faults a patch ends well, unless it stops at a short write. -/
theorem patchLoop_noFaults (h : Holding D d w)
    (hD : d.length + min bs.flatten.length w.bytesToUpdate ≤ D.length)
    (hs : stops = true → bs.flatten.length ≤ w.bytesToUpdate) :
    ∃ w', patchLoop stops noFaults none bs w = (none, w') := by
  induction bs generalizing w d with
  | nil => exact ⟨w, by rw [patchLoop]; simp⟩
  | cons b bs ih =>
    rw [List.flatten_cons, List.length_append] at hD hs
    obtain ⟨w₁, hw⟩ := write_noFaults h (b := b) (by omega)
    obtain ⟨hH, -, hU, -⟩ := write_ok h hw
    have hrest : ∃ w', patchLoop stops noFaults none bs w₁ = (none, w') := by
      apply ih hH
      · rw [hU, List.length_append, List.length_take]
        omega
      · intro hst
        have := hs hst
        rw [hU]
        omega
    rw [patchLoop_cons (by simp), hw]
    dsimp only
    split
    · next hshort =>
      have := hs hshort.2
      omega
    · exact hrest

end Patch

/-! ## The inactive partition after an installation -/

/-- The property of the whole path: an installation that reports no error has the target at the
beginning of the inactive partition, and without faults none is reported. -/
def InstallsTarget (lib : DeltaEngine → EngineLib)
    (realDev : DeltaFile → Bytes → Option InstallError × Bytes) (p : Partitions)
    (engine : DeltaEngine) (tmp : String) (base target : Bytes) : Prop :=
  let f := artifactDelta lib engine tmp base target
  (∀ io, (storeUpdate lib realDev io p f).1 = none →
    target <+: (storeUpdate lib realDev io p f).2) ∧
  (storeUpdate lib realDev noInstallFaults p f).1 = none

/-- How far the full frames of a stream reach that is cut at the size of the base. -/
def framesEnd (sectorSize : Nat) (base target : Bytes) : Nat :=
  min base.length target.length / calculateFrameSize sectorSize * calculateFrameSize sectorSize

/-- The engine has no reason to stop, and what is not in a full frame of the cut stream is on the
partition already. -/
def RestInPlace (lib : EngineLib) (p : Partitions) (base target : Bytes) : Prop :=
  (lib.stopsOnShortWrite = true → target.length ≤ base.length) ∧
    target.drop (framesEnd p.sectorSize base target) <+:
      p.inactive.drop (framesEnd p.sectorSize base target)

section Install

variable {w : BlockDeviceWriter} {D d target : Bytes} {lib : EngineLib} {io : InstallFaults}
  {p : Partitions} {delta : Bytes} {size : Nat}

theorem content_of_holding (h : Holding D d w) :
    w.content = d.take (d.length / w.frameSize * w.frameSize) ++
      D.drop (d.length / w.frameSize * w.frameSize) := by
  have hc := h.written.content
  rw [length_take_frames] at hc
  exact hc

/-- If the rest of the target is in place behind the full frames, no fault of `Close` harms it. -/
theorem prefix_close_content (io : Faults) (h : Holding D d w) (hd : d <+: target)
    (hrest : target.drop (d.length / w.frameSize * w.frameSize) <+:
      D.drop (d.length / w.frameSize * w.frameSize)) :
    target <+: (w.close io).2.content := by
  set n := d.length / w.frameSize * w.frameSize with hn
  have hle : n ≤ d.length := Nat.div_mul_le_self _ _
  have htake : target.take n = d.take n := by
    obtain ⟨rest, rfl⟩ := hd
    exact List.take_append_of_le_length hle
  have hcontent := content_of_holding h
  rw [← hn] at hcontent
  have hdrop : w.content.drop n = D.drop n := by
    rw [hcontent, List.drop_left' (List.length_take_of_le hle)]
  have hbuffer : w.buffer <+: target.drop n := by
    have hsplit : w.buffer = d.drop n := by
      have hs := h.split
      rw [← hn] at hs
      conv_lhs at hs => rw [← List.take_append_drop n d]
      exact (List.append_cancel_left hs).symm
    rw [hsplit]
    exact hd.drop n
  obtain ⟨k, hk⟩ := close_content io h
  have hsame : overwrite w.content n (w.buffer.take k) = w.content := by
    apply overwrite_prefix_eq
    rw [hdrop]
    exact ((List.take_prefix k w.buffer).trans hbuffer).trans hrest
  rw [hk, ← hn, hsame, hcontent, ← htake]
  conv_lhs => rw [← List.take_append_drop n target]
  exact (List.prefix_append_right_inj _).mpr hrest

/-- `Close` hides a read that fails under the flush: it reports no error and flushes nothing. -/
theorem exists_close_hidden_fault (w : BlockDeviceWriter) :
    ∃ io, (w.close io).1 = none ∧ (w.close io).2.content = w.content := by
  refine ⟨fun c => if c = w.deviceFile.calls then some 0 else none, ?_, ?_⟩
  · simp [close, writeFrameIfDiff, cmpFrames, DeviceFile.readFull, Except.map,
      BlockDeviceWriter.sync, DeviceFile.sync, Nat.add_assoc]
  · simp [close, writeFrameIfDiff, cmpFrames, DeviceFile.readFull, Except.map,
      BlockDeviceWriter.sync, DeviceFile.sync, BlockDeviceWriter.content]

/-- The outcome of an installation whose patch ends well. -/
theorem writeDelta_of_patch {w' : BlockDeviceWriter} (hA : io.openActive = false)
    (hI : io.openInactive = false)
    (hpatch : patchLoop lib.stopsOnShortWrite io.patch io.read (lib.patch p.active delta)
      (initWriter p.inactive p.sectorSize size) = (none, w')) :
    writeDeltaToInactive lib io p delta size =
      ((w'.close io.close).1.map .close, (w'.close io.close).2.content) := by
  have hneg : ¬ ((size : Int) < 0) := by omega
  simp [writeDeltaToInactive, openInactiveForWriting, hA, hI, hneg, hpatch]

/-- An installation without an error went through the patch and `Close`. -/
theorem writeDelta_ok (hok : (writeDeltaToInactive lib io p delta size).1 = none) :
    ∃ w', patchLoop lib.stopsOnShortWrite io.patch io.read (lib.patch p.active delta)
        (initWriter p.inactive p.sectorSize size) = (none, w') ∧
      (writeDeltaToInactive lib io p delta size).2 = (w'.close io.close).2.content := by
  have hneg : ¬ ((size : Int) < 0) := by omega
  cases hA : io.openActive with
  | true => simp [writeDeltaToInactive, hA] at hok
  | false =>
    cases hI : io.openInactive with
    | true =>
      simp [writeDeltaToInactive, openInactiveForWriting, hA, hI, hneg] at hok
    | false =>
      rcases hp : patchLoop lib.stopsOnShortWrite io.patch io.read (lib.patch p.active delta)
        (initWriter p.inactive p.sectorSize size) with ⟨_ | e, w'⟩
      · exact ⟨w', rfl, by rw [writeDelta_of_patch hA hI hp]⟩
      · simp [writeDeltaToInactive, openInactiveForWriting, hA, hI, hneg, hp] at hok

end Install

/-- **A delta update leaves the target image on the inactive partition** for every pattern of I/O
faults, and reports no error without any, exactly when the engine does not run into the size of the
base image and everything behind the full frames written is in place already. -/
theorem deltaInstall_correct_iff {lib : DeltaEngine → EngineLib}
    {realDev : DeltaFile → Bytes → Option InstallError × Bytes} {p : Partitions}
    {engine : DeltaEngine} {tmp : String} {base target : Bytes}
    (hpatch : ∀ active, base <+: active →
      ((lib engine).patch active ((lib engine).delta base target)).flatten = target)
    (hactive : base <+: p.active) (hsector : 1 ≤ p.sectorSize)
    (hbase : base.length ≤ p.inactive.length) (htarget : target.length ≤ p.inactive.length)
    (hsize : base.length < 2 ^ 63) :
    InstallsTarget lib realDev p engine tmp base target ↔
      RestInPlace (lib engine) p base target := by
  have hstream := hpatch p.active hactive
  have hend : (target.take base.length).length / calculateFrameSize p.sectorSize *
      calculateFrameSize p.sectorSize = framesEnd p.sectorSize base target := by
    rw [List.length_take]
    rfl
  unfold InstallsTarget RestInPlace
  simp only [storeUpdate_artifactDelta hsize]
  constructor
  · intro ⟨hall, hno⟩
    obtain ⟨w, hw, -⟩ := writeDelta_ok hno
    obtain ⟨hH, hF, hstop⟩ := patchLoop_initWriter_ok hsector hw
    rw [hstream] at hH hstop
    refine ⟨hstop, ?_⟩
    -- the flush of `Close` may fail unseen
    obtain ⟨io, hnone, hcontent⟩ := exists_close_hidden_fault w
    have hrun : writeDeltaToInactive (lib engine) { noInstallFaults with close := io } p _
        base.length = _ := writeDelta_of_patch rfl rfl hw
    have hpre := hall { noInstallFaults with close := io } (by rw [hrun]; simp [hnone])
    rw [hrun] at hpre
    change target <+: (w.close io).2.content at hpre
    rw [hcontent, content_of_holding hH, hF, hend] at hpre
    have hdrop := hpre.drop (framesEnd p.sectorSize base target)
    rw [List.drop_left'] at hdrop
    · exact hdrop
    · rw [← hend]
      exact length_take_frames _ _
  · intro ⟨hstop, hrest⟩
    constructor
    · intro io hok
      obtain ⟨w, hw, hcontent⟩ := writeDelta_ok hok
      obtain ⟨hH, hF, -⟩ := patchLoop_initWriter_ok hsector hw
      rw [hstream] at hH
      rw [hcontent]
      apply prefix_close_content io.close hH (List.take_prefix _ _)
      rw [hF, hend]
      exact hrest
    · have hrun : ∃ w, patchLoop (lib engine).stopsOnShortWrite noFaults none
          ((lib engine).patch p.active ((lib engine).delta base target))
          (initWriter p.inactive p.sectorSize base.length) = (none, w) := by
        apply patchLoop_noFaults (holding_initWriter p.inactive hsector base.length)
        · rw [hstream]
          change 0 + min target.length base.length ≤ p.inactive.length
          omega
        · rw [hstream]
          exact hstop
      obtain ⟨w, hw⟩ := hrun
      have hrun : writeDeltaToInactive (lib engine) noInstallFaults p _ base.length = _ :=
        writeDelta_of_patch rfl rfl hw
      rw [hrun]
      change (w.close noFaults).1.map InstallError.close = none
      rw [close_noFaults, Option.map_none]

/-- An engine whose deltas hold the target image as one literal. -/
def literalLib (stopsOnShortWrite : Bool) : DeltaEngine → EngineLib := fun _ =>
  { delta := fun _ target => target, patch := fun _ delta => [delta], stopsOnShortWrite }

/-- A one-byte base on a device of one sector, with zeros on the inactive partition. -/
def smallPartitions : Partitions := ⟨512, 1 :: sectorOf 0, sectorOf 0⟩

/-- A wrapped installer that does nothing. -/
def idleDev : DeltaFile → Bytes → Option InstallError × Bytes := fun _ inactive => (none, inactive)

/-- A base that fills a frame. -/
@[irreducible] def frameBase : Bytes := List.replicate 1048576 0

/-- A target of the same length that differs from the base in the last bytes. -/
@[irreducible] def frameTarget : Bytes := List.replicate 1048573 0 ++ [7, 8, 9]

/-- A third image. -/
@[irreducible] def frameOther : Bytes := List.replicate 1048576 5 ++ [6]

def framePartitions : Partitions := ⟨512, frameBase ++ [1], frameOther⟩

theorem frameBase_length : frameBase.length = 1048576 := by
  unfold frameBase
  exact List.length_replicate

theorem frameTarget_length : frameTarget.length = 1048576 := by
  unfold frameTarget
  rw [List.length_append, List.length_replicate]
  rfl

theorem frameOther_length : frameOther.length = 1048577 := by
  unfold frameOther
  rw [List.length_append, List.length_replicate]
  rfl

theorem framesEnd_frame {sectorSize : Nat} {base target : Bytes}
    (hsector : 1 ≤ sectorSize) (hbase : base.length = calculateFrameSize sectorSize)
    (htarget : target.length = calculateFrameSize sectorSize) :
    framesEnd sectorSize base target = target.length := by
  unfold framesEnd
  rw [hbase, htarget, Nat.min_self, Nat.div_self (frameSize_pos hsector), Nat.one_mul]

/-- The frame of the target is written over the third image. -/
theorem deltaInstall_correct_frame :
    InstallsTarget (literalLib true) idleDev framePartitions .xdelta "rootfs-image-delta-7" frameBase
      frameTarget := by
  have hbase : frameBase.length ≤ frameOther.length := by
    rw [frameBase_length, frameOther_length]
    decide
  have htarget : frameTarget.length ≤ frameOther.length := by
    rw [frameTarget_length, frameOther_length]
    decide
  have hsize : frameBase.length < 2 ^ 63 := by
    rw [frameBase_length]
    decide
  have hframe : calculateFrameSize 512 = 1048576 := by decide +kernel
  have hend : framesEnd 512 frameBase frameTarget = frameTarget.length :=
    framesEnd_frame (by decide) (frameBase_length.trans hframe.symm)
      (frameTarget_length.trans hframe.symm)
  have hrest : RestInPlace (literalLib true .xdelta) framePartitions frameBase frameTarget := by
    constructor
    · intro _
      rw [frameBase_length, frameTarget_length]
    · change frameTarget.drop (framesEnd 512 frameBase frameTarget) <+: _
      rw [hend, List.drop_length]
      exact List.nil_prefix
  exact (deltaInstall_correct_iff (fun _ _ => List.append_nil _) (List.prefix_append ..) (by decide)
    hbase htarget hsize).mpr hrest

/-- A target longer than the base: the size in the file name is that of the base, the writer takes
one byte of two, and the installation fails although no I/O does. -/
theorem deltaInstall_fails_longer :
    ((literalLib true .rsync).patch smallPartitions.active
      ((literalLib true .rsync).delta [1] [2, 3])).flatten = [2, 3] ∧
    [1] <+: smallPartitions.active ∧ [2, 3].length ≤ smallPartitions.inactive.length ∧
    ¬ InstallsTarget (literalLib true) idleDev smallPartitions .rsync "rootfs-image-delta-7" [1]
      [2, 3] := by
  refine ⟨rfl, ⟨_, rfl⟩, by decide +kernel, ?_⟩
  intro h
  have hno := h.2
  rw [storeUpdate_artifactDelta (by decide)] at hno
  revert hno
  decide +kernel

end Rdfm.Linux
