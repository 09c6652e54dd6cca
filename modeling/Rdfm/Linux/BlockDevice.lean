import Rdfm.Lib.DeviceFile

/-!
# The difference-skipping block writer

The Linux client's `blockDeviceWriter`: bytes are collected in a buffer, every full frame is
compared with the frame on the device and rewritten only if it differs, and `Close` flushes what is
left. Each operation returns its result with the writer it leaves.
-/

namespace Rdfm.Linux

open Rdfm.Lib

/-! ## The writer -/

def maximumChunkSize : Nat := 1 * 1024 * 1024

/-- The loop of `calculateFrameSize`, with a bound on the number of doublings. -/
def frameLoop : Nat → Nat → Nat
  | 0, frameSize => frameSize
  | n + 1, frameSize => if frameSize < maximumChunkSize then frameLoop n (frameSize * 2) else frameSize

def calculateFrameSize (sectorSize : Nat) : Nat := frameLoop 20 sectorSize

structure BlockDeviceWriter where
  bytesToUpdate : Nat
  buffer : Bytes
  sectorSize : Nat
  frameSize : Nat
  bytesUntilFlush : Int
  deviceFile : DeviceFile
deriving DecidableEq, Repr

/-- A writer at the start of the device. -/
def initWriter (content : Bytes) (sectorSize updateSize : Nat) : BlockDeviceWriter where
  bytesToUpdate := updateSize
  buffer := []
  sectorSize := sectorSize
  frameSize := calculateFrameSize sectorSize
  bytesUntilFlush := 0
  deviceFile := ⟨content, 0, 0⟩

namespace BlockDeviceWriter

/-- The bytes on the device. -/
def content (w : BlockDeviceWriter) : Bytes := w.deviceFile.content

def pos (w : BlockDeviceWriter) : Nat := w.deviceFile.pos

def sync (io : Faults) (w : BlockDeviceWriter) : Option Errno × BlockDeviceWriter :=
  let (err, f) := w.deviceFile.sync io
  (err, { w with bytesUntilFlush := w.sectorSize, deviceFile := f })

/-- Whether the frame at the position has to be rewritten. -/
def cmpFrames (io : Faults) (b : Bytes) (w : BlockDeviceWriter) :
    Except Errno Bool × BlockDeviceWriter :=
  let (r, f) := w.deviceFile.readFull io w.frameSize
  (r.map fun deviceFrame => decide (b ≠ deviceFrame), { w with deviceFile := f })

def writeAndSyncIfNeeded (io : Faults) (b : Bytes) (w : BlockDeviceWriter) :
    (Nat × Option Errno) × BlockDeviceWriter :=
  let ((bytesWritten, err), f) := w.deviceFile.write io b
  let w := { w with bytesUntilFlush := w.bytesUntilFlush - bytesWritten, deviceFile := f }
  if w.bytesUntilFlush < 0 ∧ err = none then
    let (err, w) := w.sync io
    ((bytesWritten, err), w)
  else
    ((bytesWritten, err), w)

def writeFrameIfDiff (io : Faults) (b : Bytes) (w : BlockDeviceWriter) :
    (Nat × Option Errno) × BlockDeviceWriter :=
  match w.cmpFrames io b with
  | (.error e, w) => ((0, some e), w)
  | (.ok true, w) =>
    match w.deviceFile.seekBack io w.frameSize with
    | (some e, f) => ((0, some e), { w with deviceFile := f })
    | (none, f) => { w with deviceFile := f }.writeAndSyncIfNeeded io b
  | (.ok false, w) => ((w.frameSize, none), w)

/-- The frame loop of `bufferedWrite`. -/
def writeFrames (io : Faults) : Nat → BlockDeviceWriter → Option Errno × BlockDeviceWriter
  | 0, w => (none, w)
  | framesToWrite + 1, w =>
    let frame := w.buffer.take w.frameSize
    let w := { w with buffer := w.buffer.drop w.frameSize }
    match w.writeFrameIfDiff io frame with
    | ((_, some e), w) => (some e, w)
    | ((_, none), w) => writeFrames io framesToWrite w

def bufferedWrite (io : Faults) (b : Bytes) (w : BlockDeviceWriter) :
    (Nat × Option Errno) × BlockDeviceWriter :=
  let w := { w with buffer := w.buffer ++ b }
  if w.buffer.length < w.frameSize then
    ((b.length, none), w)
  else
    match writeFrames io (w.buffer.length / w.frameSize) w with
    | (some e, w) => ((0, some e), w)
    | (none, w) => ((b.length, none), w)

/-- `Write`: never more than the size of the update. A cut is only reported when the write of the
rest fails. -/
def write (io : Faults) (b : Bytes) (w : BlockDeviceWriter) :
    (Nat × Option Errno) × BlockDeviceWriter :=
  let noSpace := decide (b.length > w.bytesToUpdate)
  let b := if noSpace then b.take w.bytesToUpdate else b
  let ((bytesWritten, err), w) := w.bufferedWrite io b
  let err := if err ≠ none ∧ noSpace = true then some .noSpace else err
  ((bytesWritten, err), { w with bytesToUpdate := w.bytesToUpdate - bytesWritten })

/-- `Close`: the error of the flush is only logged. -/
def close (io : Faults) (w : BlockDeviceWriter) : Option Errno × BlockDeviceWriter :=
  let (_, w) := w.writeFrameIfDiff io w.buffer
  match w.sync io with
  | (some e, w) => (some e, w)
  | (none, w) =>
    let (err, f) := w.deviceFile.sync io
    (err, { w with deviceFile := f })

end BlockDeviceWriter

end Rdfm.Linux
