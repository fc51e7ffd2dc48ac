import TelemetryEdge.Telemetryd.Cascade

/-!
# What the operations of the writer do

A triple for every operation of the writer up to a whole rotation.  The bytes
of a file are counted together with the bytes still buffered for it, so a flush
changes nothing, whether it succeeds or fails.
-/

namespace TelemetryEdge
namespace Telemetryd

open Attempt

namespace Output

/-- The bytes of a file with those still buffered for it. -/
def content (output : Output) (inode : Nat) : List UInt8 :=
  output.disk.contents inode ++
    if inode = output.writer.file.inode then output.writer.file.buffer else []

/-- The files of the log by index, with what is buffered for them. -/
def slot (output : Output) : Slots (List UInt8) :=
  output.disk.slot.map output.content

theorem content_self (output : Output) :
    output.content output.writer.file.inode =
      output.disk.contents output.writer.file.inode ++
        output.writer.file.buffer := by
  rw [content, if_pos rfl]

/-- Bytes have been added to the open file.  Nothing else has changed, apart
from the operations that have been made. -/
structure Wrote (bytes : List UInt8) (before after : Output) : Prop where
  content : after.content = Function.update before.content
    before.writer.file.inode (before.content before.writer.file.inode ++ bytes)
  directory : after.disk.directory = before.disk.directory
  nextInode : after.disk.nextInode = before.disk.nextInode
  inode : after.writer.file.inode = before.writer.file.inode
  maxBytes : after.writer.maxBytes = before.writer.maxBytes
  maxFiles : after.writer.maxFiles = before.writer.maxFiles
  size : after.writer.size = before.writer.size
  faults : after.disk.faults <:+ before.disk.faults

namespace Wrote

theorem refl (output : Output) : Wrote [] output output where
  content := by rw [List.append_nil, Function.update_eq_self]
  directory := rfl
  nextInode := rfl
  inode := rfl
  maxBytes := rfl
  maxFiles := rfl
  size := rfl
  faults := List.suffix_rfl

theorem trans
    {early late : List UInt8}
    {first second third : Output}
    (wroteEarly : Wrote early first second)
    (wroteLate : Wrote late second third) :
    Wrote (early ++ late) first third where
  content := by
    rw [wroteLate.content, wroteEarly.inode, wroteEarly.content,
      Function.update_self, Function.update_idem, List.append_assoc]
  directory := wroteLate.directory.trans wroteEarly.directory
  nextInode := wroteLate.nextInode.trans wroteEarly.nextInode
  inode := wroteLate.inode.trans wroteEarly.inode
  maxBytes := wroteLate.maxBytes.trans wroteEarly.maxBytes
  maxFiles := wroteLate.maxFiles.trans wroteEarly.maxFiles
  size := wroteLate.size.trans wroteEarly.size
  faults := wroteLate.faults.trans wroteEarly.faults

/-- Without bytes the contents of all files are as before. -/
theorem content_eq
    {before after : Output}
    (flushed : Wrote [] before after) :
    after.content = before.content := by
  rw [flushed.content, List.append_nil, Function.update_eq_self]

theorem diskSlot
    {bytes : List UInt8}
    {before after : Output}
    (wrote : Wrote bytes before after) :
    after.disk.slot = before.disk.slot := by
  unfold Disk.slot
  rw [wrote.directory]

theorem slot
    {before after : Output}
    (flushed : Wrote [] before after) :
    after.slot = before.slot := by
  rw [Output.slot, flushed.diskSlot, flushed.content_eq, Output.slot]

theorem sound
    {bytes : List UInt8}
    {before after : Output}
    (wrote : Wrote bytes before after)
    (sound : before.disk.Sound) :
    after.disk.Sound where
  distinct := by
    rw [wrote.diskSlot]
    exact sound.distinct
  fresh := by
    rw [wrote.diskSlot, wrote.nextInode]
    exact sound.fresh

/-- Writing brings no faults. -/
theorem faults_eq_nil
    {bytes : List UInt8}
    {before after : Output}
    (wrote : Wrote bytes before after)
    (quiet : before.disk.faults = []) :
    after.disk.faults = [] :=
  List.suffix_nil.mp (quiet ▸ wrote.faults)

/-- Bytes written to the current file are added to it. -/
theorem slot_eq_put
    {bytes : List UInt8}
    {before after : Output}
    (wrote : Wrote bytes before after)
    (sound : before.disk.Sound)
    (current : before.disk.slot 0 = some before.writer.file.inode) :
    after.slot = before.slot.put 0
      (some (before.content before.writer.file.inode ++ bytes)) := by
  have apart (index : Nat) (other : index ≠ 0) :
      before.disk.slot index ≠ some before.writer.file.inode := fun held =>
    other (sound.distinct index 0 _ held current)
  rw [Output.slot, wrote.diskSlot, wrote.content,
    ← Slots.put_eq_self current, Slots.map_update_put _ _ apart]
  rfl

end Wrote

/-- Some bytes are stored and others are left in the buffer: together they are
what was buffered and what has been added. -/
theorem wrote_writeFile
    {output : Output}
    {bytes rest added : List UInt8}
    (split : output.writer.file.buffer ++ added =
      bytes.take (output.writeFile bytes).1 ++ rest) :
    Wrote added output ((output.writeFile bytes).2.setBuffer rest) where
  content := by
    funext inode
    by_cases opened : inode = output.writer.file.inode
    · subst opened
      rw [Function.update_self, content_self, List.append_assoc, split,
        ← List.append_assoc]
      simp [content, writeFile, setBuffer, Disk.append]
    · rw [Function.update_of_ne opened]
      simp [content, writeFile, setBuffer, Disk.append, opened]
  directory := rfl
  nextInode := rfl
  inode := rfl
  maxBytes := rfl
  maxFiles := rfl
  size := rfl
  faults := List.tail_suffix output.disk.faults

/-- A write stores less than all of its bytes exactly if it fails. -/
theorem writeFile_lt_iff
    (output : Output)
    {bytes : List UInt8}
    (nonempty : bytes ≠ []) :
    (output.writeFile bytes).1 < bytes.length ↔ output.disk.calm = false := by
  have positive := List.length_pos_iff.mpr nonempty
  unfold writeFile Disk.append Disk.calm
  cases output.disk.faults.head?.join with
  | none => simp
  | some written =>
      simp only [Option.isNone_some, iff_true]
      omega

/-- Whether the first operation after a flush succeeds, the flush included. -/
def calmPastFlush (output : Output) : Bool :=
  if output.writer.file.buffer = [] then output.disk.calm
  else output.disk.calm && output.disk.advance.calm

theorem flushBuf_of_buffered
    {output : Output}
    (buffered : output.writer.file.buffer ≠ []) :
    flushBuf output =
      let written := output.writeFile output.writer.file.buffer
      let drained := written.2.setBuffer
        (output.writer.file.buffer.drop written.1)
      if written.1 < output.writer.file.buffer.length then
        (.error .write, drained)
      else (.ok (), drained) :=
  if_neg buffered

/-- A flush adds nothing, and if it succeeds nothing is left in the buffer. -/
theorem flushBuf_spec (output : Output) :
    Ensures (output = ·) flushBuf
      (fun _ after => Wrote [] output after ∧
        after.writer.file.buffer = [] ∧
        output.calmPastFlush = after.disk.calm)
      (fun _ after => Wrote [] output after ∧ output.disk.faults ≠ [] ∧
        output.calmPastFlush = false) := by
  rintro _ rfl
  by_cases buffered : output.writer.file.buffer = []
  · rw [flushBuf, if_pos buffered]
    refine ⟨Wrote.refl output, buffered, ?_⟩
    rw [calmPastFlush, if_pos buffered]
  · let written := output.writeFile output.writer.file.buffer
    have wrote : Wrote [] output (written.2.setBuffer
        (output.writer.file.buffer.drop written.1)) := by
      apply wrote_writeFile
      rw [List.append_nil, List.take_append_drop]
    have fails := writeFile_lt_iff output buffered
    rw [flushBuf_of_buffered buffered]
    dsimp only
    by_cases short : (output.writeFile output.writer.file.buffer).1 <
        output.writer.file.buffer.length
    · rw [if_pos short]
      have stormy := fails.mp short
      refine ⟨wrote, Disk.faults_ne_nil_of_not_calm stormy, ?_⟩
      rw [calmPastFlush, if_neg buffered, stormy, Bool.false_and]
    · rw [if_neg short]
      have calm : output.disk.calm = true :=
        eq_true_of_ne_false (mt fails.mpr short)
      refine ⟨wrote, List.drop_eq_nil_of_le (Nat.le_of_not_lt short), ?_⟩
      rw [calmPastFlush, if_neg buffered, calm, Bool.true_and]
      rfl

theorem writeDirect_eq (bytes : List UInt8) (output : Output) :
    writeDirect bytes output =
      let written := output.writeFile bytes
      if written.1 < bytes.length then (.error .write, written.2)
      else (.ok (), written.2) := rfl

/-- A write past an empty buffer adds its bytes, or some of them if it
fails. -/
theorem writeDirect_spec
    (bytes : List UInt8)
    {output : Output}
    (drained : output.writer.file.buffer = []) :
    Ensures (output = ·) (writeDirect bytes)
      (fun _ after => Wrote bytes output after)
      (fun _ after => output.disk.faults ≠ [] ∧
        ∃ stored < bytes.length, Wrote (bytes.take stored) output after) := by
  rintro _ rfl
  have wrote : Wrote (bytes.take (output.writeFile bytes).1) output
      ((output.writeFile bytes).2.setBuffer []) := by
    apply wrote_writeFile
    rw [drained, List.nil_append, List.append_nil]
  have same : (output.writeFile bytes).2.setBuffer [] =
      (output.writeFile bytes).2 := by
    rw [← drained]
    rfl
  rw [same] at wrote
  rw [writeDirect_eq]
  dsimp only
  by_cases short : (output.writeFile bytes).1 < bytes.length
  · rw [if_pos short]
    have nonempty : bytes ≠ [] :=
      List.length_pos_iff.mp (Nat.zero_lt_of_lt short)
    exact ⟨Disk.faults_ne_nil_of_not_calm
      ((writeFile_lt_iff output nonempty).mp short), _, short, wrote⟩
  · rw [if_neg short]
    rwa [List.take_of_length_le (Nat.le_of_not_lt short)] at wrote

theorem buffer_spec (bytes : List UInt8) (output : Output) :
    Ensures (output = ·) (buffer bytes)
      (fun _ after => Wrote bytes output after)
      (fun _ _ => False) := by
  refine Ensures.modify ?_
  rintro _ rfl
  refine { Wrote.refl output with content := ?_ }
  funext inode
  by_cases opened : inode = output.writer.file.inode
  · subst opened
    rw [Function.update_self, content_self, List.append_assoc]
    simp [content, setBuffer]
  · rw [Function.update_of_ne opened]
    simp [content, setBuffer, opened]

/-- Making room for bytes empties the buffer if they will not go through it. -/
theorem makeRoom_spec (bytes : List UInt8) (output : Output) :
    Ensures (output = ·)
      (runIf (BufWriter.capacity - output.writer.file.buffer.length <
        bytes.length) flushBuf)
      (fun _ after => Wrote [] output after ∧
        (BufWriter.capacity ≤ bytes.length → after.writer.file.buffer = []))
      (fun _ after => output.disk.faults ≠ [] ∧
        ∃ stored < bytes.length, Wrote (bytes.take stored) output after) := by
  refine Ensures.runIf (fun full => ?_) fun room _ same => ?_
  · refine (flushBuf_spec output).mono ?_ ?_
    · rintro _ after ⟨flushed, drained, -⟩
      exact ⟨flushed, fun _ => drained⟩
    · rintro _ after ⟨flushed, faulty, -⟩
      refine ⟨faulty, 0, Nat.zero_lt_of_lt full, ?_⟩
      rwa [List.take_zero]
  · subst same
    refine ⟨Wrote.refl output, fun long => ?_⟩
    rw [← List.length_eq_zero_iff]
    have positive : 0 < BufWriter.capacity := by decide
    omega

/-- A write adds its bytes to the file, or some of them if it fails. -/
theorem writeAll_spec (bytes : List UInt8) (output : Output) :
    Ensures (output = ·) (writeAll bytes)
      (fun _ after => Wrote bytes output after)
      (fun _ after => output.disk.faults ≠ [] ∧
        ∃ stored < bytes.length, Wrote (bytes.take stored) output after) := by
  refine Ensures.bind_read ?_
  dsimp only
  split
  · exact (buffer_spec bytes output).mono (fun _ _ => id)
      fun _ _ => False.elim
  · refine (makeRoom_spec bytes output).andThen (fun _ _ => id)
      fun _ middle made => ?_
    obtain ⟨flushed, drained⟩ := made
    split
    · next long =>
        refine (writeDirect_spec bytes (drained long)).mono
          (fun _ _ wrote => flushed.trans wrote) ?_
        rintro _ after ⟨faulty, stored, short, wrote⟩
        exact ⟨flushed.faults.ne_nil faulty, stored, short,
          flushed.trans wrote⟩
    · exact (buffer_spec bytes middle).mono
        (fun _ _ wrote => flushed.trans wrote) fun _ _ => False.elim

end Output

namespace Disk

/-- A name that is entered for an index leads to its file. -/
theorem slot_of_insert
    {before after : Disk}
    {index inode : Nat}
    (entered : after.directory =
      before.directory.insert (path index) inode) :
    after.slot = before.slot.put index (some inode) := by
  funext other
  simp only [slot, entered, Slots.put, KeyedMap.lookup_insert_eq_ite, path_inj]

/-- A new file is none of the files there are. -/
theorem Sound.create
    {before after : Disk}
    (sound : before.Sound)
    (created : after.slot = before.slot.put 0 (some before.nextInode))
    (next : after.nextInode = before.nextInode + 1) :
    after.Sound where
  distinct := by
    rw [created]
    exact sound.distinct.put 0 fun index held =>
      Nat.lt_irrefl _ (sound.fresh index _ held)
  fresh index inode held := by
    rw [next]
    rw [created, Slots.put] at held
    split at held
    · obtain rfl := Option.some.inj held
      exact Nat.lt_succ_self before.nextInode
    · exact Nat.lt_succ_of_lt (sound.fresh index inode held)

/-- New bytes in the current file change what is stored in no other. -/
theorem stored_update_current
    {disk : Disk}
    (sound : disk.Sound)
    {current : Nat}
    (found : disk.slot 0 = some current)
    (bytes : List UInt8) :
    disk.slot.map (Function.update disk.contents current bytes) =
      disk.stored.put 0 (some bytes) := by
  have apart (index : Nat) (other : index ≠ 0) :
      disk.slot index ≠ some current := fun held =>
    other (sound.distinct index 0 current held found)
  rw [Disk.stored, ← Slots.map_update_put disk.contents bytes apart,
    Slots.put_eq_self found]

/-- A new file changes what is stored in no other. -/
theorem stored_create
    {before after : Disk}
    (sound : before.Sound)
    (created : after.slot = before.slot.put 0 (some before.nextInode))
    (empty : after.contents =
      Function.update before.contents before.nextInode []) :
    after.stored = before.stored.put 0 (some []) := by
  have unused (index : Nat) : before.slot index ≠ some before.nextInode :=
    fun held => Nat.lt_irrefl _ (sound.fresh index _ held)
  rw [Disk.stored, created, empty]
  exact Slots.map_update_put _ [] fun index _ => unused index

/-- Opening the current file leaves all other files as they are.  The file is
empty if it is truncated or has just been created. -/
theorem openFile_spec
    (truncate : Bool)
    {disk : Disk}
    (sound : disk.Sound) :
    Ensures (disk = ·) (openFile truncate (path 0))
      (fun inode after => after.Sound ∧ after.slot 0 = some inode ∧
        after.stored = disk.stored.put 0
          (some (if truncate then [] else (disk.stored 0).getD [])) ∧
        KeepsForeign disk after ∧ after.faults <:+ disk.faults)
      (fun _ after => disk.calm = false ∧ after = disk.advance) := by
  refine (operation_spec _ _ disk).mono ?_ fun _ _ => id
  rintro inode after ⟨-, done⟩
  have suffix : disk.advance.faults <:+ disk.faults :=
    List.tail_suffix disk.faults
  cases found : disk.slot 0 with
  | some current =>
      have found' : disk.advance.directory.lookup (path 0) = some current :=
        found
      simp only [found'] at done
      have stored := stored_update_current sound found
      cases truncate with
      | true =>
          obtain ⟨rfl, rfl⟩ := Prod.mk.inj done
          exact ⟨⟨sound.distinct, sound.fresh⟩, found, stored [],
            fun _ _ => rfl, suffix⟩
      | false =>
          obtain ⟨rfl, rfl⟩ := Prod.mk.inj done
          have whole := stored (disk.contents current)
          rw [Function.update_eq_self] at whole
          refine ⟨⟨sound.distinct, sound.fresh⟩, found, whole.trans ?_,
            fun _ _ => rfl, suffix⟩
          simp [Disk.stored, found]
  | none =>
      have found' : disk.advance.directory.lookup (path 0) = none := found
      simp only [found'] at done
      obtain ⟨rfl, rfl⟩ := Prod.mk.inj done
      refine ⟨sound.create (slot_of_insert rfl) rfl, ?_, ?_, ?_, suffix⟩
      · refine (congrFun (@slot_of_insert disk _ 0 disk.nextInode ?_) 0).trans ?_
        · rfl
        · exact Slots.put_self ..
      · refine (stored_create sound (slot_of_insert rfl) rfl).trans ?_
        simp [stored, found]
      · intro name other
        exact Finmap.lookup_insert_of_ne _ (other 0)

end Disk

/-! ## Rotation -/

namespace Output

/-- A triple for the disk holds of a writer's operation on it. -/
theorem onDisk_spec
    {output : Output}
    {attempt : Attempt IoError Disk α}
    {after : α → Disk → Prop}
    {failed : IoError → Disk → Prop}
    (ensures : Ensures (output.disk = ·) attempt after failed) :
    Ensures (output = ·) (onDisk attempt)
      (fun value reached => after value reached.disk ∧
        reached.writer = output.writer)
      (fun error reached => failed error reached.disk ∧
        reached.writer = output.writer) := by
  rintro _ rfl
  have result := ensures output.disk rfl
  unfold onDisk
  rcases ended : attempt output.disk with ⟨error | value, disk⟩
  · rw [ended] at result
    exact ⟨result, rfl⟩
  · rw [ended] at result
    exact ⟨result, rfl⟩

/-- Syncing adds nothing and leaves nothing in the buffer. -/
theorem sync_ok (output : Output) :
    Ensures (output = ·) sync
      (fun _ after => Wrote [] output after ∧ after.writer.file.buffer = [])
      (fun _ _ => output.disk.faults ≠ []) := by
  refine (flushBuf_spec output).andThen (fun _ _ failed => failed.2.1)
    fun _ flushed made => ?_
  obtain ⟨wrote, drained, -⟩ := made
  refine (onDisk_spec (Disk.operation_spec _ _ flushed.disk)).mono ?_ ?_
  · rintro _ after ⟨⟨-, done⟩, unwritten⟩
    obtain ⟨-, advanced⟩ := Prod.mk.inj done
    have synced : Wrote [] flushed { flushed with disk := flushed.disk.advance } :=
      { Wrote.refl flushed with
        faults := List.tail_suffix flushed.disk.faults }
    have same : after = { flushed with disk := flushed.disk.advance } := by
      rw [← unwritten, advanced]
    rw [same]
    exact ⟨wrote.trans synced, drained⟩
  · rintro _ after ⟨⟨stormy, -⟩, -⟩
    exact wrote.faults.ne_nil (Disk.faults_ne_nil_of_not_calm stormy)

/-- With an empty buffer the files hold what is stored. -/
theorem slot_of_drained
    {output : Output}
    (drained : output.writer.file.buffer = []) :
    output.slot = output.disk.stored := by
  have same : output.content = output.disk.contents := by
    funext inode
    rw [content, drained, ite_self, List.append_nil]
  rw [slot, same, Disk.stored]

/-- A rotation that succeeds raises every file and starts an empty one. -/
theorem rotate_ok
    {output : Output}
    (sound : output.disk.Sound) :
    Ensures (output = ·) rotate
      (fun _ after => after.disk.Sound ∧
        after.disk.slot 0 = some after.writer.file.inode ∧
        after.slot =
          (Slots.cascade (output.writer.maxFiles - 1) output.slot).put 0
            (some []) ∧
        after.writer =
          { output.writer with
            file := BufWriter.new after.writer.file.inode
            size := 0 } ∧
        Disk.KeepsForeign output.disk after.disk ∧
        after.disk.faults <:+ output.disk.faults)
      (fun _ _ => output.disk.faults ≠ []) := by
  refine (flushBuf_spec output).andThen (fun _ _ failed => failed.2.1)
    fun _ flushed made => ?_
  obtain ⟨wrote, drained, -⟩ := made
  refine Ensures.bind_read ?_
  refine (onDisk_spec (Disk.countdown_shift_ok _ _)).andThen
    (fun _ _ failed => wrote.faults.ne_nil failed.1) fun _ shifted done => ?_
  obtain ⟨⟨relinked, raised⟩, unwritten⟩ := done
  have soundShifted := (wrote.sound sound).cascade relinked raised
  refine (onDisk_spec (Disk.openFile_spec true soundShifted)).andThen
    (fun _ _ failed => ?_) fun inode opened done => Ensures.modify ?_
  · exact wrote.faults.ne_nil (relinked.faults.ne_nil
      (Disk.faults_ne_nil_of_not_calm failed.1.1))
  · rintro _ rfl
    obtain ⟨⟨soundOpened, current, stored, foreign, faults⟩, unwritten'⟩ := done
    refine ⟨soundOpened, current, ?_, ?_, fun name other => ?_,
      faults.trans (relinked.faults.trans wrote.faults)⟩
    · refine (slot_of_drained rfl).trans ?_
      calc opened.disk.stored
        _ = shifted.disk.stored.put 0 (some []) := stored
        _ = (Slots.cascade (flushed.writer.maxFiles - 1)
              flushed.disk.stored).put 0 (some []) := by
          rw [Disk.stored, raised, relinked.contents, Slots.map_cascade]
          rfl
        _ = _ := by
          rw [wrote.maxFiles, ← slot_of_drained drained, wrote.slot]
    · rw [unwritten', unwritten]
      simp only [RotatingWriter.mk.injEq]
      exact ⟨wrote.maxBytes, wrote.maxFiles, rfl, trivial⟩
    · rw [foreign name other, relinked.foreign name other, wrote.directory]

/-- Without faults a line is added whole to the file that is open after its
rotation, if there is one. -/
theorem writeLine_ok
    {line : List UInt8}
    {output : Output}
    {ready : Output → Prop}
    (rotated : Ensures (output = ·) (runIf (output.overflows line) rotate)
      (fun _ => ready) (fun _ _ => False))
    (quiet : ∀ current, ready current → current.disk.faults = []) :
    Ensures (output = ·) (writeLine line)
      (fun _ after => ∃ current whole, ready current ∧
        Wrote (line ++ [newline]) current whole ∧
        after =
          { whole with
            writer.size := whole.writer.size + (line.length + 1) })
      (fun _ _ => False) := by
  refine Ensures.bind_read ?_
  refine rotated.andThen (fun _ _ => id) fun _ current now => ?_
  refine (writeAll_spec line current).andThen
    (fun _ _ failed => failed.1 (quiet current now)) fun _ half wroteLine => ?_
  have stillQuiet := wroteLine.faults_eq_nil (quiet current now)
  refine (writeAll_spec [newline] half).andThen
    (fun _ _ failed => failed.1 stillQuiet) fun _ whole wroteNewline => ?_
  refine Ensures.modify ?_
  rintro _ rfl
  exact ⟨current, whole, now, wroteLine.trans wroteNewline, rfl⟩

end Output
end Telemetryd
end TelemetryEdge
