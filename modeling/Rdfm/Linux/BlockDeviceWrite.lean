import Rdfm.Linux.BlockDevice
import Mathlib.Tactic.Ring

/-!
# The block writer against a plain sequential write

The invariant is `Holding D d w`: a writer that started on a device holding `D` and has taken the
bytes `d` has all full frames of `d` on the device, the rest in its buffer, and the file position
between the two. Every `Write` that reports no error keeps it (`write_ok`), whatever faults the
device has. What `Close` does with the rest decides the final content (`close_content`,
`close_noFaults`): the last frame is read back whole, so near the end of the device the flush fails,
and its error is only logged.
-/

namespace Rdfm.Linux

open Rdfm.Lib

/-! ## Frame sizes -/

theorem le_frameLoop (n s : Nat) : s ≤ frameLoop n s := by
  induction n generalizing s with
  | zero => exact Nat.le_refl s
  | succ n ih =>
    unfold frameLoop
    split
    · exact Nat.le_trans (by omega) (ih (s * 2))
    · exact Nat.le_refl s

theorem frameSize_pos {s : Nat} (hs : 1 ≤ s) : 0 < calculateFrameSize s :=
  Nat.lt_of_lt_of_le hs (le_frameLoop 20 s)

namespace BlockDeviceWriter

variable {io : Faults} {b : Bytes} {w w' : BlockDeviceWriter} {D d e : Bytes}

/-! ## One frame -/

/-- What no operation below the buffer touches. -/
structure SameBuffer (w w' : BlockDeviceWriter) : Prop where
  bytesToUpdate : w'.bytesToUpdate = w.bytesToUpdate
  buffer : w'.buffer = w.buffer
  frameSize : w'.frameSize = w.frameSize

theorem writeAndSync_sameBuffer (io : Faults) (b : Bytes) (w : BlockDeviceWriter) :
    SameBuffer w (w.writeAndSyncIfNeeded io b).2 := by
  unfold writeAndSyncIfNeeded
  dsimp only
  split <;> exact ⟨rfl, rfl, rfl⟩

theorem writeFrame_sameBuffer (io : Faults) (b : Bytes) (w : BlockDeviceWriter) :
    SameBuffer w (w.writeFrameIfDiff io b).2 := by
  unfold writeFrameIfDiff cmpFrames
  rcases hr : w.deviceFile.readFull io w.frameSize with ⟨r, f⟩
  cases r with
  | error e => exact ⟨rfl, rfl, rfl⟩
  | ok data =>
    simp only [Except.map]
    cases decide (b ≠ data) with
    | false => exact ⟨rfl, rfl, rfl⟩
    | true =>
      dsimp only
      rcases hs : f.seekBack io w.frameSize with ⟨_ | e, f'⟩
      · have h := writeAndSync_sameBuffer io b { w with deviceFile := f' }
        exact ⟨h.bytesToUpdate, h.buffer, h.frameSize⟩
      · exact ⟨rfl, rfl, rfl⟩

theorem writeAndSync_content (io : Faults) (b : Bytes) (w : BlockDeviceWriter) :
    ∃ k, (w.writeAndSyncIfNeeded io b).2.content = overwrite w.content w.pos (b.take k) := by
  obtain ⟨k, hk⟩ := DeviceFile.write_content io b w.deviceFile
  refine ⟨k, ?_⟩
  unfold writeAndSyncIfNeeded
  dsimp only
  split <;> exact hk

theorem writeAndSync_ok {m : Nat} (h : w.writeAndSyncIfNeeded io b = ((m, none), w')) :
    w'.content = overwrite w.content w.pos b ∧ w'.pos = w.pos + b.length := by
  unfold writeAndSyncIfNeeded at h
  rcases hw : w.deviceFile.write io b with ⟨⟨n, err⟩, f⟩
  simp only [hw] at h
  cases err with
  | none =>
    obtain ⟨hc, hp, -⟩ := DeviceFile.write_ok hw
    split at h
    · simp only [Prod.mk.injEq] at h
      obtain ⟨-, rfl⟩ := h
      exact ⟨hc, hp⟩
    · simp only [Prod.mk.injEq] at h
      obtain ⟨-, rfl⟩ := h
      exact ⟨hc, hp⟩
  | some e => simp at h

theorem writeAndSync_noFaults (h : w.pos + b.length ≤ w.content.length) :
    ∃ m w', w.writeAndSyncIfNeeded noFaults b = ((m, none), w') := by
  obtain ⟨f, hf⟩ := DeviceFile.write_noFaults (f := w.deviceFile) h
  unfold writeAndSyncIfNeeded
  simp only [hf]
  split
  · exact ⟨_, _, rfl⟩
  · exact ⟨_, _, rfl⟩

/-- Whatever the outcome, a frame write leaves a prefix of the frame at the position. -/
theorem writeFrame_content (io : Faults) (b : Bytes) (w : BlockDeviceWriter) :
    ∃ k, (w.writeFrameIfDiff io b).2.content = overwrite w.content w.pos (b.take k) := by
  have same : overwrite w.content w.pos (b.take 0) = w.content := by simp
  unfold writeFrameIfDiff cmpFrames
  rcases hr : w.deviceFile.readFull io w.frameSize with ⟨r, f⟩
  have hcontent := DeviceFile.readFull_content io w.frameSize w.deviceFile
  rw [hr] at hcontent
  cases r with
  | error e => exact ⟨0, by rw [same]; exact hcontent⟩
  | ok data =>
    obtain ⟨-, -, -, hpos⟩ := DeviceFile.readFull_ok hr
    simp only [Except.map]
    cases decide (b ≠ data) with
    | false => exact ⟨0, by rw [same]; exact hcontent⟩
    | true =>
      dsimp only
      have hseek := DeviceFile.seekBack_content io w.frameSize f
      rcases hs : f.seekBack io w.frameSize with ⟨_ | e, f'⟩
      · obtain ⟨hc', hp'⟩ := DeviceFile.seekBack_ok hs
        obtain ⟨k, hk⟩ := writeAndSync_content io b { w with deviceFile := f' }
        have hp : f'.pos = w.pos := by
          rw [hp', hpos, Nat.add_sub_cancel]
          rfl
        refine ⟨k, hk.trans ?_⟩
        change overwrite f'.content f'.pos _ = _
        rw [hc', hp]
        exact congrArg (overwrite · _ _) hcontent
      · rw [hs] at hseek
        exact ⟨0, by rw [same]; exact hseek.trans hcontent⟩

/-- A frame write that reports no error has the frame on the device. -/
theorem writeFrame_ok {m : Nat} (h : w.writeFrameIfDiff io b = ((m, none), w')) :
    w'.content = overwrite w.content w.pos b ∧
      (b.length = w.frameSize → w'.pos = w.pos + w.frameSize) ∧
      w.pos + w.frameSize ≤ max w.pos w.content.length := by
  unfold writeFrameIfDiff cmpFrames at h
  rcases hr : w.deviceFile.readFull io w.frameSize with ⟨r, f⟩
  rw [hr] at h
  cases r with
  | error e => simp [Except.map] at h
  | ok data =>
    obtain ⟨hdata, hlen, hc, hp⟩ := DeviceFile.readFull_ok hr
    have hroom : w.pos + w.frameSize ≤ max w.pos w.content.length := by
      rw [hdata, List.length_take, List.length_drop] at hlen
      change min w.frameSize (w.content.length - w.pos) = w.frameSize at hlen
      omega
    simp only [Except.map] at h
    by_cases hdiff : b = data
    · simp only [hdiff, ne_eq, not_true_eq_false, decide_false, Prod.mk.injEq] at h
      obtain ⟨-, rfl⟩ := h
      refine ⟨?_, fun _ => hp, hroom⟩
      rw [overwrite_prefix_eq]
      · exact hc
      · rw [hdiff, hdata]
        exact List.take_prefix _ _
    · simp only [hdiff, ne_eq, not_false_eq_true, decide_true] at h
      rcases hs : f.seekBack io w.frameSize with ⟨_ | e, f'⟩
      · obtain ⟨hc', hp'⟩ := DeviceFile.seekBack_ok hs
        rw [hs] at h
        obtain ⟨hcw, hpw⟩ := writeAndSync_ok h
        have hpos : f'.pos = w.pos := by
          rw [hp', hp, Nat.add_sub_cancel]
          rfl
        refine ⟨?_, fun hb => ?_, hroom⟩
        · rw [hcw]
          change overwrite f'.content f'.pos b = _
          rw [hc', hc, hpos]
          rfl
        · rw [hpw]
          change f'.pos + b.length = _
          rw [hpos, hb]
      · rw [hs] at h
        simp at h

theorem writeFrame_noFaults (hb : b.length ≤ w.frameSize)
    (h : w.pos + w.frameSize ≤ w.content.length) :
    ∃ m w', w.writeFrameIfDiff noFaults b = ((m, none), w') := by
  obtain ⟨f, hf⟩ := DeviceFile.readFull_noFaults (f := w.deviceFile) h
  obtain ⟨-, -, hc, hp⟩ := DeviceFile.readFull_ok hf
  unfold writeFrameIfDiff cmpFrames
  rw [hf]
  simp only [Except.map]
  cases decide (b ≠ (w.deviceFile.content.drop w.deviceFile.pos).take w.frameSize) with
  | false => exact ⟨_, _, rfl⟩
  | true =>
    dsimp only
    obtain ⟨f', hf'⟩ := DeviceFile.seekBack_noFaults (f := f) (n := w.frameSize) (by omega)
    obtain ⟨hc', hp'⟩ := DeviceFile.seekBack_ok hf'
    rw [hf']
    apply writeAndSync_noFaults
    change f'.pos + b.length ≤ f'.content.length
    have hpos : f'.pos = w.pos := by
      rw [hp', hp, Nat.add_sub_cancel]
      rfl
    rw [hc', hc, hpos]
    exact Nat.le_trans (by omega) h

/-- Near the end of the device the frame cannot be read back, and nothing is written. -/
theorem writeFrame_short (hpos : w.pos ≤ w.content.length)
    (h : w.content.length < w.pos + w.frameSize) :
    (w.writeFrameIfDiff io b).2.content = w.content := by
  obtain ⟨e, f, hf⟩ := DeviceFile.readFull_short io (f := w.deviceFile) h hpos
  have hcontent := DeviceFile.readFull_content io w.frameSize w.deviceFile
  unfold writeFrameIfDiff cmpFrames
  rw [hf] at hcontent ⊢
  exact hcontent

/-! ## Frames in a row -/

/-- The bytes `e` have replaced the beginning of `D`, and the position is behind them. -/
structure Written (D e : Bytes) (w : BlockDeviceWriter) : Prop where
  content : w.content = e ++ D.drop e.length
  pos : w.pos = e.length
  bound : e.length ≤ D.length

theorem Written.content_length (h : Written D e w) : w.content.length = D.length := by
  have := h.bound
  rw [h.content, List.length_append, List.length_drop]
  omega

/-- A frame written behind `e`. -/
theorem Written.frame (h : Written D e w) {m : Nat} (hb : b.length = w.frameSize)
    (hok : w.writeFrameIfDiff io b = ((m, none), w')) : Written D (e ++ b) w' := by
  obtain ⟨hc, hp, hroom⟩ := writeFrame_ok hok
  have hbound : e.length + b.length ≤ D.length := by
    rw [h.content_length, h.pos] at hroom
    have := h.bound
    omega
  refine ⟨?_, ?_, by simpa using hbound⟩
  · rw [hc, h.content, h.pos, overwrite_append, List.drop_drop, List.length_append]
  · rw [hp hb, h.pos, List.length_append, hb]

/-- The writer without the first frame of its buffer. -/
def dropFrame (w : BlockDeviceWriter) : BlockDeviceWriter :=
  { w with buffer := w.buffer.drop w.frameSize }

section Frame

variable {n m : Nat} {err : Errno}

theorem writeFrames_succ_ok
    (hfr : w.dropFrame.writeFrameIfDiff io (w.buffer.take w.frameSize) = ((m, none), w')) :
    writeFrames io (n + 1) w = writeFrames io n w' := by
  unfold dropFrame at hfr
  simp only [writeFrames, hfr]

theorem writeFrames_succ_error
    (hfr : w.dropFrame.writeFrameIfDiff io (w.buffer.take w.frameSize) = ((m, some err), w')) :
    writeFrames io (n + 1) w = (some err, w') := by
  unfold dropFrame at hfr
  simp only [writeFrames, hfr]

theorem Written.dropFrame (h : Written D e w) : Written D e w.dropFrame :=
  ⟨h.content, h.pos, h.bound⟩

end Frame

theorem writeFrames_ok {n : Nat} (h : Written D e w) (hn : n * w.frameSize ≤ w.buffer.length)
    (hok : writeFrames io n w = (none, w')) :
    Written D (e ++ w.buffer.take (n * w.frameSize)) w' ∧
      w'.buffer = w.buffer.drop (n * w.frameSize) ∧ w'.frameSize = w.frameSize ∧
      w'.bytesToUpdate = w.bytesToUpdate := by
  induction n generalizing w e with
  | zero =>
    simp only [writeFrames, Prod.mk.injEq, true_and] at hok
    subst hok
    simpa using h
  | succ n ih =>
    have hlen : w.frameSize ≤ w.buffer.length := by
      rw [Nat.succ_mul] at hn
      omega
    rcases hfr : w.dropFrame.writeFrameIfDiff io (w.buffer.take w.frameSize) with ⟨⟨m, _ | err⟩, w₁⟩
    · have hframe : (w.buffer.take w.frameSize).length = w.dropFrame.frameSize := by
        rw [List.length_take]
        exact Nat.min_eq_left hlen
      have hw₁ := h.dropFrame.frame hframe hfr
      have hsame := writeFrame_sameBuffer io (w.buffer.take w.frameSize) w.dropFrame
      rw [hfr] at hsame
      have hbuf : w₁.buffer = w.buffer.drop w.frameSize := hsame.buffer
      have hF : w₁.frameSize = w.frameSize := hsame.frameSize
      rw [writeFrames_succ_ok hfr] at hok
      have hn₁ : n * w₁.frameSize ≤ w₁.buffer.length := by
        rw [hbuf, hF, List.length_drop]
        rw [Nat.succ_mul] at hn
        omega
      obtain ⟨hW, hB, hF', hU⟩ := ih hw₁ hn₁ hok
      refine ⟨?_, ?_, hF'.trans hF, hU.trans hsame.bytesToUpdate⟩
      · rw [hbuf, hF, List.append_assoc, ← List.take_add] at hW
        rw [Nat.succ_mul, Nat.add_comm]
        exact hW
      · rw [hB, hbuf, hF, List.drop_drop, Nat.succ_mul, Nat.add_comm]
    · rw [writeFrames_succ_error hfr] at hok
      cases hok

theorem writeFrames_noFaults {n : Nat} (h : Written D e w)
    (hn : n * w.frameSize ≤ w.buffer.length) (hD : e.length + n * w.frameSize ≤ D.length) :
    ∃ w', writeFrames noFaults n w = (none, w') := by
  induction n generalizing w e with
  | zero => exact ⟨w, rfl⟩
  | succ n ih =>
    have hlen : w.frameSize ≤ w.buffer.length := by
      rw [Nat.succ_mul] at hn
      omega
    have hframe : (w.buffer.take w.frameSize).length = w.dropFrame.frameSize := by
      rw [List.length_take]
      exact Nat.min_eq_left hlen
    have hroom : w.dropFrame.pos + w.dropFrame.frameSize ≤ w.dropFrame.content.length := by
      rw [h.dropFrame.pos, h.dropFrame.content_length]
      change e.length + w.frameSize ≤ D.length
      rw [Nat.succ_mul] at hD
      omega
    obtain ⟨m, w₁, hfr⟩ := writeFrame_noFaults (Nat.le_of_eq hframe) hroom
    have hw₁ := h.dropFrame.frame hframe hfr
    have hsame := writeFrame_sameBuffer noFaults (w.buffer.take w.frameSize) w.dropFrame
    rw [hfr] at hsame
    have hbuf : w₁.buffer = w.buffer.drop w.frameSize := hsame.buffer
    have hF : w₁.frameSize = w.frameSize := hsame.frameSize
    rw [writeFrames_succ_ok hfr]
    apply ih hw₁
    · rw [hbuf, hF, List.length_drop]
      rw [Nat.succ_mul] at hn
      omega
    · rw [hF, List.length_append, hframe]
      change e.length + w.frameSize + n * w.frameSize ≤ D.length
      rw [Nat.succ_mul] at hD
      omega

/-! ## The invariant of a writer -/

/-- The writer has taken the bytes `d`: the full frames are on the device, the rest is buffered. -/
structure Holding (D d : Bytes) (w : BlockDeviceWriter) : Prop where
  frame_pos : 0 < w.frameSize
  buffer_lt : w.buffer.length < w.frameSize
  split : d = d.take (d.length / w.frameSize * w.frameSize) ++ w.buffer
  written : Written D (d.take (d.length / w.frameSize * w.frameSize)) w

/-- The invariant from any split of `d` into whole frames and a shorter rest. -/
theorem Holding.of_split {n : Nat} (hF : 0 < w.frameSize) (hlt : w.buffer.length < w.frameSize)
    (hd : d = e ++ w.buffer) (he : e.length = n * w.frameSize) (hw : Written D e w) :
    Holding D d w := by
  have hdiv : d.length / w.frameSize = n := by
    rw [hd, List.length_append, he, Nat.mul_comm, Nat.mul_add_div hF, Nat.div_eq_of_lt hlt,
      Nat.add_zero]
  have htake : d.take (d.length / w.frameSize * w.frameSize) = e := by
    rw [hdiv, hd, ← he, List.take_left]
  exact ⟨hF, hlt, by rw [htake]; exact hd, by rw [htake]; exact hw⟩

theorem holding_initWriter (D : Bytes) {s : Nat} (hs : 1 ≤ s) (updateSize : Nat) :
    Holding D [] (initWriter D s updateSize) := by
  have hF : 0 < (initWriter D s updateSize).frameSize := frameSize_pos hs
  apply Holding.of_split hF hF (n := 0) (e := [])
  · rfl
  · simp
  · exact ⟨by simp [initWriter, BlockDeviceWriter.content], rfl, by simp⟩

theorem length_take_frames (d : Bytes) (F : Nat) :
    (d.take (d.length / F * F)).length = d.length / F * F := by
  rw [List.length_take]
  exact Nat.min_eq_left (Nat.div_mul_le_self _ _)

theorem Holding.length_eq (h : Holding D d w) :
    d.length = d.length / w.frameSize * w.frameSize + w.buffer.length := by
  have hs := congrArg List.length h.split
  rw [List.length_append, length_take_frames] at hs
  exact hs

/-- The writer with more bytes in its buffer. -/
def buffering (w : BlockDeviceWriter) (b : Bytes) : BlockDeviceWriter :=
  { w with buffer := w.buffer ++ b }

theorem bufferedWrite_short (h : (w.buffering b).buffer.length < (w.buffering b).frameSize) :
    w.bufferedWrite io b = ((b.length, none), w.buffering b) := if_pos h

section Frames

variable (h : ¬ (w.buffering b).buffer.length < (w.buffering b).frameSize)

include h

theorem bufferedWrite_frames_ok (hfr : writeFrames io
      ((w.buffering b).buffer.length / (w.buffering b).frameSize) (w.buffering b) = (none, w')) :
    w.bufferedWrite io b = ((b.length, none), w') := by
  unfold buffering at h hfr
  simp only [bufferedWrite, if_neg h, hfr]

theorem bufferedWrite_frames_error {err : Errno} (hfr : writeFrames io
      ((w.buffering b).buffer.length / (w.buffering b).frameSize) (w.buffering b) = (some err, w')) :
    w.bufferedWrite io b = ((0, some err), w') := by
  unfold buffering at h hfr
  simp only [bufferedWrite, if_neg h, hfr]

end Frames

theorem Holding.buffering (h : Holding D d w) (b : Bytes) :
    Written D (d.take (d.length / w.frameSize * w.frameSize)) (w.buffering b) :=
  ⟨h.written.content, h.written.pos, h.written.bound⟩

theorem bufferedWrite_ok {m : Nat} (h : Holding D d w)
    (hok : w.bufferedWrite io b = ((m, none), w')) :
    Holding D (d ++ b) w' ∧ m = b.length ∧ w'.frameSize = w.frameSize ∧
      w'.bytesToUpdate = w.bytesToUpdate := by
  have hd : d ++ b = d.take (d.length / w.frameSize * w.frameSize) ++ (w.buffering b).buffer := by
    conv_lhs => rw [h.split]
    rw [List.append_assoc]
    rfl
  by_cases hlt : (w.buffering b).buffer.length < (w.buffering b).frameSize
  · rw [bufferedWrite_short hlt] at hok
    simp only [Prod.mk.injEq] at hok
    obtain ⟨⟨rfl, -⟩, rfl⟩ := hok
    refine ⟨?_, rfl, rfl, rfl⟩
    exact .of_split h.frame_pos hlt hd (length_take_frames d w.frameSize) (h.buffering b)
  · rcases hfr : writeFrames io ((w.buffering b).buffer.length / (w.buffering b).frameSize)
      (w.buffering b) with ⟨_ | err, w₁⟩
    · rw [bufferedWrite_frames_ok hlt hfr] at hok
      simp only [Prod.mk.injEq] at hok
      obtain ⟨⟨rfl, -⟩, rfl⟩ := hok
      obtain ⟨hW, hB, hF, hU⟩ := writeFrames_ok (h.buffering b) (Nat.div_mul_le_self _ _) hfr
      have hF₁ : w₁.frameSize = w.frameSize := hF
      have hpos : 0 < (w.buffering b).frameSize := h.frame_pos
      refine ⟨?_, rfl, hF, hU⟩
      apply Holding.of_split
        (n := d.length / w.frameSize + (w.buffering b).buffer.length / (w.buffering b).frameSize)
        (by rw [hF₁]; exact h.frame_pos) ?_ ?_ ?_ hW
      · rw [hB, List.length_drop, hF]
        have hdm := Nat.div_add_mod' (w.buffering b).buffer.length (w.buffering b).frameSize
        have hmod := Nat.mod_lt (w.buffering b).buffer.length hpos
        omega
      · rw [hB, List.append_assoc, List.take_append_drop]
        exact hd
      · rw [List.length_append, length_take_frames, List.length_take,
          Nat.min_eq_left (Nat.div_mul_le_self _ _), hF₁, Nat.add_mul]
        rfl
    · rw [bufferedWrite_frames_error hlt hfr] at hok
      cases hok

theorem bufferedWrite_noFaults (h : Holding D d w) (hD : d.length + b.length ≤ D.length) :
    ∃ w', w.bufferedWrite noFaults b = ((b.length, none), w') := by
  by_cases hlt : (w.buffering b).buffer.length < (w.buffering b).frameSize
  · exact ⟨_, bufferedWrite_short hlt⟩
  · have hle := Nat.div_mul_le_self (w.buffering b).buffer.length (w.buffering b).frameSize
    have hlen : (w.buffering b).buffer.length = w.buffer.length + b.length := List.length_append
    have hroom : (d.take (d.length / w.frameSize * w.frameSize)).length +
        (w.buffering b).buffer.length / (w.buffering b).frameSize * (w.buffering b).frameSize ≤
        D.length := by
      rw [length_take_frames]
      have := h.length_eq
      omega
    obtain ⟨w₁, hfr⟩ := writeFrames_noFaults (h.buffering b) hle hroom
    exact ⟨w₁, bufferedWrite_frames_ok hlt hfr⟩

theorem cut_eq_take (b : Bytes) (n : Nat) :
    (if decide (b.length > n) = true then b.take n else b) = b.take n := by
  split
  · rfl
  · next hle =>
    simp only [gt_iff_lt, decide_eq_true_eq, not_lt] at hle
    rw [List.take_of_length_le hle]

/-- A `Write` that reports no error takes what the size of the update still allows, and reports
that many bytes. -/
theorem write_ok {m : Nat} (h : Holding D d w) (hok : w.write io b = ((m, none), w')) :
    Holding D (d ++ b.take w.bytesToUpdate) w' ∧ m = min b.length w.bytesToUpdate ∧
      w'.bytesToUpdate = w.bytesToUpdate - m ∧ w'.frameSize = w.frameSize := by
  unfold write at hok
  simp only [cut_eq_take] at hok
  rcases hbw : w.bufferedWrite io (b.take w.bytesToUpdate) with ⟨⟨n, err⟩, w₁⟩
  simp only [hbw, Prod.mk.injEq] at hok
  obtain ⟨⟨rfl, herr⟩, rfl⟩ := hok
  have : err = none := by
    split at herr
    · cases herr
    · exact herr
  subst this
  obtain ⟨hH, hn, hF, hU⟩ := bufferedWrite_ok h hbw
  refine ⟨⟨hH.frame_pos, hH.buffer_lt, hH.split, ?_⟩, ?_, ?_, hF⟩
  · exact ⟨hH.written.content, hH.written.pos, hH.written.bound⟩
  · rw [hn, List.length_take, Nat.min_comm]
  · change w₁.bytesToUpdate - n = _
    rw [hU]

theorem write_noFaults (h : Holding D d w)
    (hD : d.length + min b.length w.bytesToUpdate ≤ D.length) :
    ∃ w', w.write noFaults b = ((min b.length w.bytesToUpdate, none), w') := by
  have hlen : (b.take w.bytesToUpdate).length = min b.length w.bytesToUpdate := by
    rw [List.length_take, Nat.min_comm]
  obtain ⟨w₁, hw₁⟩ := bufferedWrite_noFaults h (b := b.take w.bytesToUpdate) (by omega)
  unfold write
  simp only [cut_eq_take, hw₁, hlen, ne_eq, not_true_eq_false, false_and, ↓reduceIte]
  exact ⟨_, rfl⟩

/-! ## Closing -/

/-- Whatever faults it meets, `Close` puts at most a part of the buffered rest behind the full
frames. -/
theorem close_content (io : Faults) (h : Holding D d w) :
    ∃ k, (w.close io).2.content =
      overwrite w.content (d.length / w.frameSize * w.frameSize) (w.buffer.take k) := by
  obtain ⟨k, hk⟩ := writeFrame_content io w.buffer w
  refine ⟨k, ?_⟩
  rw [h.written.pos, length_take_frames] at hk
  rw [← hk]
  unfold close sync
  dsimp only
  split
  · next heq =>
    simp only [Prod.mk.injEq] at heq
    rw [← heq.2]
    rfl
  · next heq =>
    simp only [Prod.mk.injEq] at heq
    rw [← heq.2]
    rfl

/-- Without faults `Close` reports no error, whether or not the flush succeeded. -/
theorem close_noFaults (w : BlockDeviceWriter) : (w.close noFaults).1 = none := rfl

theorem close_noFaults_content (w : BlockDeviceWriter) :
    (w.close noFaults).2.content = (w.writeFrameIfDiff noFaults w.buffer).2.content := rfl

/-- With a whole frame left on the device the rest is flushed. -/
theorem close_flushed (h : Holding D d w)
    (hroom : w.buffer = [] ∨ d.length / w.frameSize * w.frameSize + w.frameSize ≤ D.length) :
    (w.close noFaults).2.content = d ++ D.drop d.length := by
  have hfull : overwrite w.content w.pos w.buffer = d ++ D.drop d.length := by
    rw [h.written.content, h.written.pos, overwrite_append, List.drop_drop, ← List.length_append,
      ← h.split]
  rw [close_noFaults_content]
  rcases hroom with hnil | hroom
  · obtain ⟨k, hk⟩ := writeFrame_content noFaults w.buffer w
    rw [hk, ← hfull, hnil, List.take_nil]
  · have hp : w.pos + w.frameSize ≤ w.content.length := by
      rw [h.written.pos, length_take_frames, h.written.content_length]
      exact hroom
    obtain ⟨m, w', hok⟩ := writeFrame_noFaults (Nat.le_of_lt h.buffer_lt) hp
    rw [hok, (writeFrame_ok hok).1]
    exact hfull

/-- Without one the rest is dropped. -/
theorem close_dropped (h : Holding D d w)
    (hroom : D.length < d.length / w.frameSize * w.frameSize + w.frameSize) :
    (w.close noFaults).2.content =
      d.take (d.length / w.frameSize * w.frameSize) ++
        D.drop (d.length / w.frameSize * w.frameSize) := by
  have hlen := h.written.content_length
  have hb := h.written.bound
  have hp := h.written.pos
  rw [length_take_frames] at hp hb
  rw [close_noFaults_content, writeFrame_short (by omega) (by omega), h.written.content,
    length_take_frames]

/-! ## A whole write -/

/-- Consecutive `Write` calls, with what each of them returned. -/
def writeAll (io : Faults) : List Bytes → BlockDeviceWriter →
    List (Nat × Option Errno) × BlockDeviceWriter
  | [], w => ([], w)
  | b :: bs, w =>
    let (r, w) := w.write io b
    let (rs, w) := writeAll io bs w
    (r :: rs, w)

/-- Within the size of the update and of the device, every `Write` takes and reports all of its
bytes. -/
theorem writeAll_noFaults {bs : List Bytes} (h : Holding D d w)
    (hU : bs.flatten.length ≤ w.bytesToUpdate) (hD : d.length + bs.flatten.length ≤ D.length) :
    ∃ w', writeAll noFaults bs w = (bs.map fun b => (b.length, none), w') ∧
      Holding D (d ++ bs.flatten) w' ∧ w'.frameSize = w.frameSize := by
  induction bs generalizing w d with
  | nil => exact ⟨w, rfl, by simpa using h, rfl⟩
  | cons b bs ih =>
    rw [List.flatten_cons, List.length_append] at hU hD
    have hmin : min b.length w.bytesToUpdate = b.length := Nat.min_eq_left (by omega)
    obtain ⟨w₁, hw₁⟩ := write_noFaults h (b := b) (by omega)
    rw [hmin] at hw₁
    obtain ⟨hH, -, hU₁, hF₁⟩ := write_ok h hw₁
    rw [List.take_of_length_le (by omega)] at hH
    obtain ⟨w', hw', hH', hF'⟩ := ih hH (by omega) (by rw [List.length_append]; omega)
    refine ⟨w', ?_, ?_, hF'.trans hF₁⟩
    · simp only [writeAll, hw₁, hw', List.map_cons]
    · rwa [List.append_assoc] at hH'

/-- The plain write the writer stands for: if every call reports success, `d` has replaced the
beginning of the device, and each `Write` reported the length of its bytes. -/
def RefinesSequentialWrite (D : Bytes) (sectorSize updateSize : Nat) (chunks : List Bytes) : Prop :=
  let (results, w) := writeAll noFaults chunks (initWriter D sectorSize updateSize)
  let (closed, w) := w.close noFaults
  (∀ r ∈ results, r.2 = none) → closed = none →
    w.content = chunks.flatten ++ D.drop chunks.flatten.length ∧
      results.map Prod.fst = chunks.map List.length

/-- What the flush of `d` needs: no rest, or a whole frame left on the device behind the full
frames, or the rest already in place. -/
def FlushFits (D d : Bytes) (frameSize : Nat) : Prop :=
  d.length % frameSize = 0 ∨ d.length / frameSize * frameSize + frameSize ≤ D.length ∨
    d.drop (d.length / frameSize * frameSize) <+: D.drop (d.length / frameSize * frameSize)

theorem Holding.buffer_length (h : Holding D d w) : w.buffer.length = d.length % w.frameSize := by
  have hdm := Nat.div_add_mod' d.length w.frameSize
  have := h.length_eq
  omega

/-- A rest that is not written is in place exactly when it already was. -/
theorem take_append_drop_eq_iff {p : Nat} (hp : p ≤ d.length) :
    d.take p ++ D.drop p = d ++ D.drop d.length ↔ d.drop p <+: D.drop p := by
  have hsplit : d ++ D.drop d.length = d.take p ++ (d.drop p ++ D.drop d.length) := by
    rw [← List.append_assoc, List.take_append_drop]
  rw [hsplit, List.append_cancel_left_eq]
  constructor
  · intro h
    exact ⟨_, h.symm⟩
  · rintro ⟨rest, hrest⟩
    have hlen : (d.drop p).length = d.length - p := List.length_drop
    have hdrop : rest = D.drop d.length := by
      have := congrArg (List.drop (d.drop p).length) hrest
      rw [List.drop_left, List.drop_drop, hlen] at this
      rw [this]
      congr 1
      omega
    rw [← hrest, hdrop]

/-- The content after fault-free writes and `Close`. -/
theorem close_eq_iff (h : Holding D d w) :
    (w.close noFaults).2.content = d ++ D.drop d.length ↔ FlushFits D d w.frameSize := by
  by_cases hnil : w.buffer = []
  · have hmod : d.length % w.frameSize = 0 := by
      rw [← h.buffer_length, hnil, List.length_nil]
    exact iff_of_true (close_flushed h (.inl hnil)) (.inl hmod)
  · by_cases hroom : d.length / w.frameSize * w.frameSize + w.frameSize ≤ D.length
    · exact iff_of_true (close_flushed h (.inr hroom)) (.inr (.inl hroom))
    · have hmod : d.length % w.frameSize ≠ 0 := by
        rw [← h.buffer_length]
        intro hz
        exact hnil (List.eq_nil_of_length_eq_zero hz)
      rw [close_dropped h (by omega), take_append_drop_eq_iff (Nat.div_mul_le_self _ _)]
      constructor
      · intro hpre
        exact .inr (.inr hpre)
      · intro hfit
        rcases hfit with hz | hz | hz
        · exact absurd hz hmod
        · exact absurd hz hroom
        · exact hz

/-- **The block writer refines a sequential write** exactly when the rest of the data behind its
last full frame can be flushed. -/
theorem blockWriter_refines_iff {s updateSize : Nat} {chunks : List Bytes} (hs : 1 ≤ s)
    (hU : chunks.flatten.length ≤ updateSize) (hD : chunks.flatten.length ≤ D.length) :
    RefinesSequentialWrite D s updateSize chunks ↔
      FlushFits D chunks.flatten (calculateFrameSize s) := by
  have h₀ := holding_initWriter D hs updateSize
  obtain ⟨w, hw, hH, hF⟩ := writeAll_noFaults h₀ hU (by simpa using hD)
  have hF' : w.frameSize = calculateFrameSize s := hF
  rw [List.nil_append] at hH
  unfold RefinesSequentialWrite
  rw [hw, ← hF', ← close_eq_iff hH]
  dsimp only
  constructor
  · intro h
    exact (h (by simp) (close_noFaults w)).1
  · intro h _ _
    exact ⟨h, by simp [Function.comp_def]⟩

/-- Bytes that are on the device already can be written again, in two calls. -/
theorem blockWriter_refines_same : RefinesSequentialWrite [7, 8, 9] 512 2 [[7], [8]] := by
  apply (blockWriter_refines_iff (by decide) (by decide) (by decide)).mpr
  exact .inr (.inr ⟨[9], by decide +kernel⟩)

theorem RefinesSequentialWrite.content {s updateSize : Nat} {chunks : List Bytes}
    (hr : ∀ r ∈ (writeAll noFaults chunks (initWriter D s updateSize)).1, r.2 = none)
    (h : RefinesSequentialWrite D s updateSize chunks) :
    ((writeAll noFaults chunks (initWriter D s updateSize)).2.close noFaults).2.content =
      chunks.flatten ++ D.drop chunks.flatten.length :=
  (h hr rfl).1

/-- A sector of one byte. -/
def sectorOf (v : UInt8) : Bytes := List.replicate 512 v

/-- One sector of ones on a one-sector device of zeros: every call succeeds, nothing is written. -/
theorem blockWriter_drops_sector :
    ¬ RefinesSequentialWrite (sectorOf 0) 512 512 [sectorOf 1] := by
  apply mt (RefinesSequentialWrite.content (by decide +kernel))
  decide +kernel

end BlockDeviceWriter

end Rdfm.Linux
