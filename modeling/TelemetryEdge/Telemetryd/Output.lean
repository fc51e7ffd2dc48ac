import TelemetryEdge.Foundation.Attempt
import TelemetryEdge.Foundation.KeyedLoop
import TelemetryEdge.Foundation.Machine
import TelemetryEdge.Foundation.Slots

/-!
# Telemetry output files

Lines are appended to `telemetry.ndjson`; rotated files are `telemetry.ndjson.1`
(newest) up to the limit.  The disk keeps names apart from the files they name,
because a writer goes on writing to the file it has opened when that file is
renamed.  A list of faults decides which of the coming file operations fail.
-/

namespace TelemetryEdge
namespace Telemetryd

/-- The name of the file that is written to. -/
def fileName : String := "telemetry.ndjson"

/-- Name of the file with an index; index zero is the file being written. -/
def path (index : Nat) : String :=
  if index = 0 then fileName else fileName ++ "." ++ index.repr

/-- Different numbers have different decimals. -/
theorem repr_injective {left right : Nat} (same : left.repr = right.repr) :
    left = right := by
  have digits := congrArg (fun text => Nat.ofDigitChars 10 text.toList 0) same
  simpa only [Nat.toList_repr, Nat.ofDigitChars_ten_toDigits] using digits

theorem path_injective {left right : Nat} (same : path left = path right) :
    left = right := by
  have longer (index : Nat) : fileName ≠ fileName ++ "." ++ index.repr := by
    intro equal
    have lengths := congrArg String.length equal
    simp only [String.length_append] at lengths
    have dot : ".".length = 1 := rfl
    omega
  unfold path at same
  split at same <;> split at same
  · omega
  · exact absurd same (longer right)
  · exact absurd same.symm (longer left)
  · simp only [String.append_assoc, String.append_right_inj] at same
    exact repr_injective same

@[simp] theorem path_inj {left right : Nat} :
    path left = path right ↔ left = right :=
  ⟨path_injective, congrArg path⟩

/-! ## The disk -/

/-- The file operations the writer makes. -/
inductive IoError
  | createDirAll
  | openFile
  | metadata
  | write
  | syncData
  | removeFile
  | rename
  deriving DecidableEq, Repr

/-- A directory and the files behind its names.  `faults` says of each coming
operation whether it fails; a write that fails has stored some bytes before. -/
structure Disk where
  directory : KeyedMap String Nat
  contents : Nat → List UInt8
  nextInode : Nat
  faults : List (Option Nat)

namespace Disk

/-- An empty directory on a disk where no operation fails. -/
def empty : Disk where
  directory := ∅
  contents := fun _ => []
  nextInode := 0
  faults := []

/-- The bytes stored under a name. -/
def read (disk : Disk) (name : String) : Option (List UInt8) :=
  (disk.directory.lookup name).map disk.contents

/-- Whether the next operation succeeds. -/
def calm (disk : Disk) : Bool :=
  disk.faults.head?.join.isNone

/-- The disk once the next operation has been made. -/
def advance (disk : Disk) : Disk :=
  { disk with faults := disk.faults.tail }

/-- An operation that fails without effect or does all of its work. -/
def operation
    (error : IoError)
    (effect : Disk → α × Disk) : Attempt IoError Disk α := fun disk =>
  if disk.calm then
    let (value, after) := effect disk.advance
    (.ok value, after)
  else (.error error, disk.advance)

/-- `std::fs::create_dir_all`. -/
def createDirAll : Attempt IoError Disk Unit :=
  operation .createDirAll fun disk => ((), disk)

/-- Open a file by name, creating it if there is none; `truncate` empties it. -/
def openFile (truncate : Bool) (name : String) : Attempt IoError Disk Nat :=
  operation .openFile fun disk =>
    match disk.directory.lookup name with
    | some inode =>
        (inode,
          if truncate then
            { disk with contents := Function.update disk.contents inode [] }
          else disk)
    | none =>
        (disk.nextInode,
          { disk with
            directory := disk.directory.insert name disk.nextInode
            contents := Function.update disk.contents disk.nextInode []
            nextInode := disk.nextInode + 1 })

/-- Length of an open file. -/
def metadataLen (inode : Nat) : Attempt IoError Disk Nat :=
  operation .metadata fun disk => ((disk.contents inode).length, disk)

/-- `File::sync_data`. -/
def syncData : Attempt IoError Disk Unit :=
  operation .syncData fun disk => ((), disk)

/-- `std::fs::remove_file`. -/
def removeFile (name : String) : Attempt IoError Disk Unit :=
  operation .removeFile fun disk =>
    ((), { disk with directory := disk.directory.erase name })

/-- Rename a file that exists, replacing the target if there is one. -/
def rename (source target : String) : Attempt IoError Disk Unit :=
  operation .rename fun disk =>
    ((), match disk.directory.lookup source with
      | some inode =>
          { disk with
            directory := (disk.directory.erase source).insert target inode }
      | none => disk)

/-- Append bytes to a file.  The result counts the bytes that were stored; a
write that fails stores less than all of them. -/
def append (inode : Nat) (bytes : List UInt8) (disk : Disk) : Nat × Disk :=
  let stored :=
    match disk.faults.head?.join with
    | none => bytes.length
    | some written => min written (bytes.length - 1)
  (stored,
    { disk.advance with
      contents := Function.update disk.contents inode
        (disk.contents inode ++ bytes.take stored) })

end Disk

/-! ## The writer -/

/-- Bytes waiting to be written to an open file. -/
structure BufWriter where
  inode : Nat
  buffer : List UInt8

/-- The default capacity of a `BufWriter`. -/
def BufWriter.capacity : Nat := 8 * 1024

/-- `BufWriter::new` on an open file. -/
def BufWriter.new (inode : Nat) : BufWriter where
  inode := inode
  buffer := []

/-- A writer that renames its file when it would grow too large. -/
structure RotatingWriter where
  maxBytes : Nat
  maxFiles : Nat
  file : BufWriter
  size : Nat

/-- A writer and the disk it writes to. -/
structure Output where
  writer : RotatingWriter
  disk : Disk

/-- Line feed, which ends every line. -/
def newline : UInt8 := 10

namespace Output

/-- Make an operation of the disk. -/
def onDisk (attempt : Attempt IoError Disk α) : Attempt IoError Output α :=
  fun output =>
    let (result, disk) := attempt output.disk
    (result, { output with disk })

/-- Append bytes to the open file.  The result counts the bytes stored. -/
def writeFile (bytes : List UInt8) (output : Output) : Nat × Output :=
  let (stored, disk) := output.disk.append output.writer.file.inode bytes
  (stored, { output with disk })

/-- The output with other bytes in the buffer. -/
def setBuffer (output : Output) (buffer : List UInt8) : Output :=
  { output with
    writer.file.buffer := buffer }

/-- Write out what is buffered.  What could not be written stays buffered. -/
def flushBuf : Attempt IoError Output Unit := fun output =>
  let buffer := output.writer.file.buffer
  if buffer = [] then (.ok (), output)
  else
    let (stored, after) := output.writeFile buffer
    let drained := after.setBuffer (buffer.drop stored)
    if stored < buffer.length then (.error .write, drained)
    else (.ok (), drained)

/-- Write past the buffer. -/
def writeDirect (bytes : List UInt8) : Attempt IoError Output Unit :=
  fun output =>
    let (stored, after) := output.writeFile bytes
    if stored < bytes.length then (.error .write, after) else (.ok (), after)

/-- Put bytes that fit into the buffer. -/
def buffer (bytes : List UInt8) : Attempt IoError Output Unit :=
  Attempt.modify fun output =>
    output.setBuffer (output.writer.file.buffer ++ bytes)

/-- Write bytes through the buffer: what fits is only buffered, and what is
longer than the buffer goes to the file at once. -/
def writeAll (bytes : List UInt8) : Attempt IoError Output Unit := do
  let spare := BufWriter.capacity - (← Attempt.read).writer.file.buffer.length
  if bytes.length < spare then buffer bytes
  else
    Attempt.runIf (spare < bytes.length) flushBuf
    if BufWriter.capacity ≤ bytes.length then writeDirect bytes
    else buffer bytes

/-- Write out what is in the buffer. -/
def flush : Attempt IoError Output Unit :=
  flushBuf

/-- Write out the buffer and wait until the file is on the disk. -/
def sync : Attempt IoError Output Unit := do
  flush
  onDisk Disk.syncData

end Output

namespace Disk

/-- One round of the rotation: move the file below an index to that index. -/
def shift (index : Nat) : Attempt IoError Disk Unit := do
  let source := path (index - 1)
  let disk ← Attempt.read
  Attempt.runIf (source ∈ disk.directory) do
    let target := path index
    Attempt.runIf (target ∈ disk.directory) (removeFile target)
    rename source target

end Disk

namespace Output

/-- Shift the files up by one index, drop the last one and open a new file. -/
def rotate : Attempt IoError Output Unit := do
  flush
  let maxFiles := (← Attempt.read).writer.maxFiles
  onDisk (Attempt.countdown Disk.shift (maxFiles - 1))
  let inode ← onDisk (Disk.openFile true (path 0))
  -- The writer replaced here has just been flushed, so dropping it does nothing.
  Attempt.modify fun output =>
    { output with
      writer.file := BufWriter.new inode
      writer.size := 0 }

/-- Whether a line would push a non-empty file past the limit. -/
def overflows (output : Output) (line : List UInt8) : Prop :=
  0 < output.writer.size ∧
    output.writer.maxBytes < output.writer.size + (line.length + 1)

instance (output : Output) (line : List UInt8) :
    Decidable (output.overflows line) :=
  inferInstanceAs (Decidable (_ ∧ _))

/-- Append one line, after a rotation if it does not fit. -/
def writeLine (line : List UInt8) : Attempt IoError Output Unit := do
  let output ← Attempt.read
  Attempt.runIf (output.overflows line) rotate
  writeAll line
  writeAll [newline]
  Attempt.modify fun output =>
    { output with
      writer.size := output.writer.size + (line.length + 1) }

/-- A writer that goes on with the next line after an error. -/
def machine : Machine Output (List UInt8) (Except IoError Unit) where
  step output line :=
    let (result, after) := writeLine line output
    (after, result)

end Output

/-- Open the current file for appending. -/
def RotatingWriter.open (maxBytes maxFiles : Nat) :
    Attempt IoError Disk RotatingWriter := do
  Disk.createDirAll
  let inode ← Disk.openFile false (path 0)
  let size ← Disk.metadataLen inode
  pure
    { maxBytes
      maxFiles := max maxFiles 1
      file := BufWriter.new inode
      size }

/-- Work with a writer and drop it, which writes out what is still buffered. -/
def RotatingWriter.using
    (writer : RotatingWriter)
    (attempt : Attempt IoError Output α) : Attempt IoError Disk α :=
  fun disk =>
    let (result, output) := attempt { writer, disk }
    (result, (Output.flushBuf output).2.disk)

/-- One run of the program: open the writer, write lines, sync. -/
def session (maxBytes maxFiles : Nat) (lines : List (List UInt8)) :
    Attempt IoError Disk Unit := do
  let writer ← RotatingWriter.open maxBytes maxFiles
  writer.using do
    lines.forM Output.writeLine
    Output.sync

/-- What the files of the log hold, read from the oldest to the newest. -/
def Disk.logged (maxFiles : Nat) (disk : Disk) : List UInt8 :=
  ((List.range maxFiles).reverse.filterMap fun index =>
    disk.read (path index)).flatten

end Telemetryd
end TelemetryEdge
